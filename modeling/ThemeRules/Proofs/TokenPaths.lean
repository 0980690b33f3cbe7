import ThemeRules.Token.Table

/-!
# ThemeRules.Proofs.TokenPaths

Paths that are put together from parts. The reader of a path is a scanner with a state, but where every
bracket that was opened is closed again, and the next part begins with a dot or a bracket, all that is
left of its state is the segment that ends there (`parseFrom_append`). So the segments of such a path
are those of its parts, and following it is following one part after the other
(`lookup_joined`). A written path is one of this kind, each part a segment
(`parsePath_writePath`).
-/

namespace ThemeRules
namespace Token

/-! ## Parts of a path -/

/-- Behind every opening bracket there is a closing one. -/
def ClosesBrackets : List Char → Prop
  | [] => True
  | c :: rest => (c = '[' → ']' ∈ rest) ∧ ClosesBrackets rest

instance decidableClosesBrackets : DecidablePred ClosesBrackets
  | [] => isTrue trivial
  | c :: rest =>
    have : Decidable (ClosesBrackets rest) := decidableClosesBrackets rest
    inferInstanceAs (Decidable ((c = '[' → ']' ∈ rest) ∧ ClosesBrackets rest))

theorem closesBrackets_plain {text : List Char} (h : '[' ∉ text) : ClosesBrackets text := by
  induction text with
  | nil => trivial
  | cons c rest ih =>
    simp only [List.mem_cons, not_or] at h
    exact ⟨fun hc => absurd hc.symm h.1, ih h.2⟩

theorem closesBrackets_concat (text : List Char) : ClosesBrackets (text ++ [']']) := by
  induction text with
  | nil => exact ⟨by decide, trivial⟩
  | cons c rest ih => exact ⟨fun _ => by simp, ih⟩

/-- The text ends a segment in front of it: it begins with a dot or a bracket, or is empty. -/
def EndsSegment : List Char → Prop
  | [] => True
  | c :: _ => c = '.' ∨ c = '['

/-- Read from this place, the path leaves no bracket open. -/
def Place.Closes : Place → List Char → Prop
  | .outside _, path => ClosesBrackets path
  | .inside _, path => ']' ∈ path ∧ ClosesBrackets path

theorem parseFrom_endsSegment {behind : List Char} (h : EndsSegment behind) (segment : List Char) :
    parseFrom (.outside segment) behind = ended segment ++ parsePath behind := by
  cases behind with
  | nil => simp [parsePath, parseFrom, ended]
  | cons c rest =>
    rcases h with rfl | rfl
    · simp [parsePath, parseFrom, ended]
    · simp [parsePath, parseFrom, ended]

/-- Where no bracket is left open, what is behind is read as a path of its own. -/
theorem parseFrom_append {behind : List Char} (hbehind : EndsSegment behind) {path : List Char} :
    ∀ place : Place, place.Closes path →
      parseFrom place (path ++ behind) = parseFrom place path ++ parsePath behind := by
  -- the place goes along: a bracket that is open at it closes in the path
  induction path with
  | nil =>
    intro place h
    cases place with
    | outside segment => exact parseFrom_endsSegment hbehind segment
    | inside segment => exact absurd h.1 List.not_mem_nil
  | cons c path ih =>
    intro place h
    rw [List.cons_append]
    cases place with
    | outside segment =>
      obtain ⟨hbracket, hclosed⟩ := h
      simp only [parseFrom]
      split
      · rw [ih (.outside []) hclosed, List.append_assoc]
      · split
        next hc => rw [ih (.inside []) ⟨hbracket hc, hclosed⟩, List.append_assoc]
        next => exact ih (.outside (c :: segment)) hclosed
    | inside segment =>
      obtain ⟨hmem, -, hclosed⟩ := h
      simp only [parseFrom]
      split
      · rw [ih (.outside []) hclosed, List.cons_append]
      next hc =>
        exact ih (.inside (c :: segment)) ⟨(List.mem_cons.mp hmem).resolve_left (Ne.symm hc), hclosed⟩

theorem parsePath_append {path behind : List Char} (hpath : ClosesBrackets path)
    (hbehind : EndsSegment behind) :
    parsePath (path ++ behind) = parsePath path ++ parsePath behind :=
  parseFrom_append hbehind (.outside []) hpath

theorem parsePath_append_dot {path : List Char} (hpath : ClosesBrackets path) (path' : List Char) :
    parsePath (path ++ '.' :: path') = parsePath path ++ parsePath path' :=
  parsePath_append hpath (.inl rfl)

theorem parsePath_append_bracket {path : List Char} (hpath : ClosesBrackets path)
    (rest : List Char) :
    parsePath (path ++ '[' :: rest) = parsePath path ++ parsePath ('[' :: rest) :=
  parsePath_append hpath (.inr rfl)

/-! ## Plain segments -/

section Plain

variable {text : List Char}

theorem parseFrom_plain (hdot : '.' ∉ text) (hbracket : '[' ∉ text) :
    ∀ segment, parseFrom (.outside segment) text = ended (text.reverse ++ segment) := by
  induction text with
  | nil => intro segment; rfl
  | cons c text ih =>
    intro segment
    simp only [List.mem_cons, not_or] at hdot hbracket
    rw [parseFrom, if_neg (Ne.symm hdot.1), if_neg (Ne.symm hbracket.1), ih hdot.2 hbracket.2,
      List.reverse_cons, List.append_assoc, List.singleton_append]

theorem parsePath_plain (hne : text ≠ []) (hdot : '.' ∉ text) (hbracket : '[' ∉ text) :
    parsePath text = [text] := by
  rw [parsePath, parseFrom_plain hdot hbracket, List.append_nil]
  simp [ended, hne]

end Plain

/-! ## Following a path part by part -/

theorem descend_append (front rest : List (List Char)) :
    ∀ document, descend document (front ++ rest) =
      (descend document front).bind fun value => descend value rest := by
  induction front with
  | nil => intro document; rfl
  | cons segment front ih =>
    intro document
    rw [List.cons_append, descend, descend]
    cases child? document segment with
    | none => rfl
    | some next => exact ih next

end Token

/-- The segments of two paths that are joined by a dot, or of which the second begins with a bracket,
are those of the first and then those of the second; and where the first leads, the second leads on. -/
theorem TokenTable.lookup_joined (tokens : TokenTable) {path : String}
    (hpath : Token.ClosesBrackets path.toList) (path' : String) :
    (Token.parsePath (path ++ "." ++ path').toList =
        Token.parsePath path.toList ++ Token.parsePath path'.toList ∧
      tokens.lookup (path ++ "." ++ path') =
        (tokens.lookup path).bind fun value => TokenTable.lookup ⟨value⟩ path') ∧
    (path'.toList.head? = some '[' →
      Token.parsePath (path ++ path').toList =
          Token.parsePath path.toList ++ Token.parsePath path'.toList ∧
        tokens.lookup (path ++ path') =
          (tokens.lookup path).bind fun value => TokenTable.lookup ⟨value⟩ path') := by
  have hlookup : ∀ joined : String,
      Token.parsePath joined.toList =
        Token.parsePath path.toList ++ Token.parsePath path'.toList →
      tokens.lookup joined =
        (tokens.lookup path).bind fun value => TokenTable.lookup ⟨value⟩ path' := by
    intro joined h
    rw [TokenTable.lookup, h, Token.descend_append]
    rfl
  constructor
  · have hparse : Token.parsePath (path ++ "." ++ path').toList =
        Token.parsePath path.toList ++ Token.parsePath path'.toList := by
      rw [String.toList_append, String.toList_append, List.append_assoc]
      exact Token.parsePath_append_dot hpath path'.toList
    exact ⟨hparse, hlookup _ hparse⟩
  · intro hhead
    obtain ⟨rest, hrest⟩ := List.head?_eq_some_iff.mp hhead
    have hparse : Token.parsePath (path ++ path').toList =
        Token.parsePath path.toList ++ Token.parsePath path'.toList := by
      rw [String.toList_append, hrest]
      exact Token.parsePath_append_bracket hpath rest
    exact ⟨hparse, hlookup _ hparse⟩

/-- A key with a dot and a bracket in it, and one in a bracket that is never closed. -/
def halfHeight : TokenTable where
  root := .object [("height", .object [("a.[b", .object [("1/2", .string "50%")])])]

theorem halfHeight_joined :
    Token.ClosesBrackets "height[a.[b]".toList ∧
      halfHeight.lookup "height[a.[b].[1/2" = some (.string "50%") ∧
      halfHeight.lookup "height[a.[b][1/2" = some (.string "50%") := by
  have hpath : Token.ClosesBrackets "height[a.[b]".toList := by decide
  obtain ⟨hdot, hbracket⟩ := halfHeight.lookup_joined hpath "[1/2"
  exact ⟨hpath, hdot.2, (hbracket rfl).2⟩

/-! ## Written paths -/

namespace Token

inductive Quote where
  | single
  | double
  deriving DecidableEq

def Quote.char : Quote → Char
  | .single => '\''
  | .double => '"'

/-- The segment between two quotes of one kind. -/
def Quote.around (quote : Quote) (segment : List Char) : List Char :=
  quote.char :: segment ++ [quote.char]

/-- The ways to write a segment. -/
inductive Spelling where
  | dotted
  | bracketed
  | quoted (quote : Quote)
  deriving DecidableEq

/-- The way can write the segment: what ends a segment written so does not occur in it, and bare
brackets hold nothing that would lose a pair of quotes. -/
def Spelling.CanWrite (spelling : Spelling) (segment : List Char) : Prop :=
  match spelling with
  | .dotted => segment ≠ [] ∧ '.' ∉ segment ∧ '[' ∉ segment
  | .bracketed => ']' ∉ segment ∧ ∀ quote inner, segment ≠ Quote.around quote inner
  | .quoted _ => ']' ∉ segment

/-- A segment as it is written; a dot goes before a dotted one, unless it comes first. -/
def Spelling.write (spelling : Spelling) (isFirst : Bool) (segment : List Char) : List Char :=
  match spelling with
  | .dotted => (if isFirst then [] else ['.']) ++ segment
  | .bracketed => '[' :: segment ++ [']']
  | .quoted quote => '[' :: quote.around segment ++ [']']

/-- A path from its segments and the way each is written. -/
def writeFrom (isFirst : Bool) : List (Spelling × List Char) → List Char
  | [] => []
  | (spelling, segment) :: rest => spelling.write isFirst segment ++ writeFrom false rest

def writePath (segments : List (Spelling × List Char)) : List Char := writeFrom true segments

theorem parseFrom_bracket {inner : List Char} (h : ']' ∉ inner) (rest : List Char) :
    ∀ segment, parseFrom (.inside segment) (inner ++ ']' :: rest) =
      stripQuotes (segment.reverse ++ inner) :: parsePath rest := by
  induction inner with
  | nil => intro segment; simp [parseFrom, parsePath]
  | cons c inner ih =>
    intro segment
    simp only [List.mem_cons, not_or] at h
    rw [List.cons_append, parseFrom, if_neg (Ne.symm h.1), ih h.2, List.reverse_cons,
      List.append_assoc, List.singleton_append]

theorem parsePath_bracket {inner : List Char} (h : ']' ∉ inner) :
    parsePath ('[' :: inner ++ [']']) = [stripQuotes inner] :=
  parseFrom_bracket h [] []

/-! ### Quotes -/

theorem stripQuotes_around (quote : Quote) (segment : List Char) :
    stripQuotes (quote.around segment) = segment := by
  have hquote : quote.char = '\'' ∨ quote.char = '"' := by cases quote <;> decide
  have hlast : (segment ++ [quote.char]).getLast? = some quote.char := List.getLast?_concat
  rw [Quote.around, List.cons_append, stripQuotes, if_pos ⟨hquote, hlast⟩, List.dropLast_concat]

/-- Quotes are taken off only where a pair of them is around the segment. -/
theorem stripQuotes_eq_self_iff (segment : List Char) :
    stripQuotes segment = segment ↔ ∀ quote inner, segment ≠ Quote.around quote inner := by
  constructor
  · intro h quote inner heq
    rw [heq, stripQuotes_around] at h
    have hlength := congrArg List.length h
    simp only [Quote.around, List.length_append, List.length_cons, List.length_nil] at hlength
    omega
  · intro h
    cases segment with
    | nil => rfl
    | cons q rest =>
      refine if_neg ?_
      rintro ⟨hq, hlast⟩
      obtain ⟨inner, rfl⟩ := List.getLast?_eq_some_iff.mp hlast
      rcases hq with rfl | rfl
      · exact h .single inner rfl
      · exact h .double inner rfl

theorem stripQuotes_sublist (segment : List Char) : (stripQuotes segment).Sublist segment := by
  cases segment with
  | nil => exact .slnil
  | cons q rest =>
    rw [stripQuotes]
    split
    · exact (List.dropLast_sublist rest).cons q
    · exact List.Sublist.refl (q :: rest)

/-! ### One segment -/

instance (spelling : Spelling) (segment : List Char) : Decidable (spelling.CanWrite segment) :=
  match spelling with
  | .dotted => inferInstanceAs (Decidable (segment ≠ [] ∧ '.' ∉ segment ∧ '[' ∉ segment))
  | .bracketed =>
    have : Decidable (∀ quote inner, segment ≠ Quote.around quote inner) :=
      decidable_of_iff _ (stripQuotes_eq_self_iff segment)
    inferInstanceAs (Decidable (']' ∉ segment ∧ ∀ quote inner, segment ≠ Quote.around quote inner))
  | .quoted _ => inferInstanceAs (Decidable (']' ∉ segment))

theorem not_mem_around {quote : Quote} {segment : List Char} (h : ']' ∉ segment) :
    ']' ∉ quote.around segment := by
  cases quote <;> simp [Quote.around, Quote.char, h]

section Write

variable {spelling : Spelling} {segment : List Char}

theorem parsePath_write (h : spelling.CanWrite segment) (isFirst : Bool) :
    parsePath (spelling.write isFirst segment) = [segment] := by
  cases spelling with
  | dotted =>
    obtain ⟨hne, hdot, hbracket⟩ := h
    cases isFirst <;> exact parsePath_plain hne hdot hbracket
  | bracketed =>
    obtain ⟨hclosing, hquotes⟩ := h
    rw [Spelling.write, parsePath_bracket hclosing, (stripQuotes_eq_self_iff segment).mpr hquotes]
  | quoted quote => rw [Spelling.write, parsePath_bracket (not_mem_around h), stripQuotes_around]

theorem closesBrackets_write (h : spelling.CanWrite segment) (isFirst : Bool) :
    ClosesBrackets (spelling.write isFirst segment) := by
  cases spelling with
  | dotted =>
    refine closesBrackets_plain ?_
    cases isFirst <;> simp [Spelling.write, h.2.2]
  | bracketed => exact closesBrackets_concat ('[' :: segment)
  | quoted quote => exact closesBrackets_concat ('[' :: quote.around segment)

end Write

theorem endsSegment_writeFrom (segments : List (Spelling × List Char)) :
    EndsSegment (writeFrom false segments) := by
  cases segments with
  | nil => trivial
  | cons s rest =>
    obtain ⟨spelling, segment⟩ := s
    cases spelling with
    | dotted => exact .inl rfl
    | bracketed => exact .inr rfl
    | quoted quote => exact .inr rfl

theorem parsePath_writeFrom {segments : List (Spelling × List Char)}
    (h : ∀ s ∈ segments, s.1.CanWrite s.2) :
    ∀ isFirst, parsePath (writeFrom isFirst segments) = segments.map Prod.snd := by
  induction segments with
  | nil => intro isFirst; rfl
  | cons s rest ih =>
    intro isFirst
    obtain ⟨spelling, segment⟩ := s
    have hs : spelling.CanWrite segment := h (spelling, segment) List.mem_cons_self
    rw [writeFrom, parsePath_append (closesBrackets_write hs isFirst) (endsSegment_writeFrom rest),
      parsePath_write hs, ih (fun s hs => h s (List.mem_cons_of_mem _ hs)) false]
    rfl

/-- A path is read back as its segments, whichever way each of them was written. -/
theorem parsePath_writePath (segments : List (Spelling × List Char))
    (h : ∀ s ∈ segments, s.1.CanWrite s.2) :
    parsePath (writePath segments) = segments.map Prod.snd :=
  parsePath_writeFrom h true

/-- Segments with quotes, dots and brackets in them, and empty ones. -/
def oddSegments : List (Spelling × List Char) := [
  (.dotted, "fontSize".toList), (.bracketed, "'lg".toList), (.quoted .double, "'xl'".toList),
  (.dotted, "]'".toList), (.quoted .single, []), (.bracketed, []), (.bracketed, "a.b[c".toList)]

theorem oddSegments_read :
    (∀ s ∈ oddSegments, s.1.CanWrite s.2) ∧
      parsePath "fontSize['lg][\"'xl'\"].]'[''][][a.b[c]".toList =
        ["fontSize".toList, "'lg".toList, "'xl'".toList, "]'".toList, [], [], "a.b[c".toList] := by
  have h : ∀ s ∈ oddSegments, s.1.CanWrite s.2 := by decide
  exact ⟨h, parsePath_writePath oddSegments h⟩

end Token
end ThemeRules
