import ThemeRules.Style.Generator

/-!
# ThemeRules.Style.Registry

The style properties there are, each with its generator, in a fixed order.
-/

namespace ThemeRules
namespace Generator

def boxSizingWords : List (String × String) :=
  [("border", "border-box"), ("content", "content-box")]

def fontStyleWords : List (String × String) :=
  [("italic", "italic"), ("not-italic", "normal")]

def whiteSpaceWords : List (String × String) :=
  [("normal", "normal"), ("no-wrap", "nowrap"), ("pre", "pre"), ("pre-line", "pre-line"),
    ("pre-wrap", "pre-wrap")]

def colors : List (String × Generator) := [
  ("backgroundColor", ⟨.dotted "backgroundColor", ["backgroundColor"]⟩),
  ("borderColor", ⟨.dotted "borderColor", ["borderColor"]⟩),
  ("textColor", ⟨.dotted "textColor", ["color"]⟩),
  ("placeholderColor", ⟨.dotted "placeholderColor", ["color"]⟩),
  ("fill", ⟨.dotted "fill", ["fill"]⟩),
  ("stroke", ⟨.dotted "stroke", ["stroke"]⟩)]

def spacing : List (String × Generator) := [
  ("padding", ⟨.indexed "padding", ["padding"]⟩),
  ("paddingTop", ⟨.indexed "padding", ["paddingTop"]⟩),
  ("paddingRight", ⟨.indexed "padding", ["paddingRight"]⟩),
  ("paddingBottom", ⟨.indexed "padding", ["paddingBottom"]⟩),
  ("paddingLeft", ⟨.indexed "padding", ["paddingLeft"]⟩),
  ("paddingX", ⟨.indexed "padding", ["paddingRight", "paddingLeft"]⟩),
  ("paddingY", ⟨.indexed "padding", ["paddingTop", "paddingBottom"]⟩),
  ("margin", ⟨.indexed "margin", ["margin"]⟩),
  ("marginTop", ⟨.indexed "margin", ["marginTop"]⟩),
  ("marginRight", ⟨.indexed "margin", ["marginRight"]⟩),
  ("marginBottom", ⟨.indexed "margin", ["marginBottom"]⟩),
  ("marginLeft", ⟨.indexed "margin", ["marginLeft"]⟩),
  ("marginX", ⟨.indexed "margin", ["marginRight", "marginLeft"]⟩),
  ("marginY", ⟨.indexed "margin", ["marginTop", "marginBottom"]⟩),
  ("gap", ⟨.indexed "gap", ["gap"]⟩)]

def sizing : List (String × Generator) := [
  ("width", ⟨.indexed "width", ["width"]⟩),
  ("height", ⟨.indexed "height", ["height"]⟩),
  ("minWidth", ⟨.indexed "minWidth", ["minWidth"]⟩),
  ("minHeight", ⟨.indexed "minHeight", ["minHeight"]⟩),
  ("maxWidth", ⟨.indexed "maxWidth", ["maxWidth"]⟩),
  ("maxHeight", ⟨.indexed "maxHeight", ["maxHeight"]⟩)]

def typography : List (String × Generator) := [
  ("fontSize", ⟨.indexed "fontSize", ["fontSize"]⟩),
  ("fontWeight", ⟨.indexed "fontWeight", ["fontWeight"]⟩),
  ("fontFamily", ⟨.indexed "fontFamily", ["fontFamily"]⟩),
  ("lineHeight", ⟨.indexed "lineHeight", ["lineHeight"]⟩),
  ("letterSpacing", ⟨.indexed "letterSpacing", ["letterSpacing"]⟩),
  ("fontStyle", ⟨.alias fontStyleWords, ["fontStyle"]⟩),
  ("whiteSpace", ⟨.alias whiteSpaceWords, ["whiteSpace"]⟩),
  ("textAlign", ⟨.verbatim, ["textAlign"]⟩),
  ("textTransform", ⟨.verbatim, ["textTransform"]⟩),
  ("textDecoration", ⟨.verbatim, ["textDecoration"]⟩),
  ("verticalAlign", ⟨.verbatim, ["verticalAlign"]⟩)]

def bordersAndEffects : List (String × Generator) := [
  ("borderRadius", ⟨.indexed "borderRadius", ["borderRadius"]⟩),
  ("borderWidth", ⟨.indexed "borderWidth", ["borderWidth"]⟩),
  ("boxShadow", ⟨.indexed "boxShadow", ["boxShadow"]⟩),
  ("opacity", ⟨.indexed "opacity", ["opacity"]⟩),
  ("cursor", ⟨.indexed "cursor", ["cursor"]⟩)]

def layout : List (String × Generator) := [
  ("boxSizing", ⟨.alias boxSizingWords, ["boxSizing"]⟩),
  ("display", ⟨.verbatim, ["display"]⟩),
  ("clear", ⟨.verbatim, ["clear"]⟩),
  ("float", ⟨.verbatim, ["float"]⟩),
  ("position", ⟨.verbatim, ["position"]⟩),
  ("overflow", ⟨.verbatim, ["overflow"]⟩),
  ("visibility", ⟨.verbatim, ["visibility"]⟩),
  ("zIndex", ⟨.indexed "zIndex", ["zIndex"]⟩),
  ("inset", ⟨.indexed "inset", ["top", "right", "bottom", "left"]⟩),
  ("top", ⟨.indexed "inset", ["top"]⟩),
  ("right", ⟨.indexed "inset", ["right"]⟩),
  ("bottom", ⟨.indexed "inset", ["bottom"]⟩),
  ("left", ⟨.indexed "inset", ["left"]⟩)]

def flexbox : List (String × Generator) := [
  ("alignItems", ⟨.verbatim, ["alignItems"]⟩),
  ("justifyContent", ⟨.verbatim, ["justifyContent"]⟩),
  ("flexDirection", ⟨.verbatim, ["flexDirection"]⟩),
  ("flexWrap", ⟨.verbatim, ["flexWrap"]⟩)]

/-- All style properties with their generators. -/
def all : List (String × Generator) :=
  colors ++ spacing ++ sizing ++ typography ++ bordersAndEffects ++ layout ++ flexbox

/-- The generator of a style property. -/
def find? (property : String) : Option Generator := all.lookup property

end Generator
end ThemeRules
