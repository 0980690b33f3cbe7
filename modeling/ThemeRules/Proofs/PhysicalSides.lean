import ThemeRules.Proofs.DeclaredStyles

/-!
# ThemeRules.Proofs.PhysicalSides

Which style entry has the last word on a side of a box. A reader of declarations lets `padding` set all four
sides, and a later declaration of a side overrides it. Style entries that set the same CSS property are
merged by key: the declaration takes the later value and keeps its place. So two entries for a side, its own
and the one of its axis, share the place of the first of them, and the shorthand wins over both if it is
behind that place. It then has the last word also over an entry that stands behind it
(`declare_sides`); in every other case the last entry that covers the side decides.
-/

namespace ThemeRules

/-! ## Sides -/

inductive Side where
  | top
  | right
  | bottom
  | left
  deriving DecidableEq

/-- The two spacings of a box. -/
inductive Spacing where
  | padding
  | margin
  deriving DecidableEq

namespace Spacing

def shorthand : Spacing → String
  | padding => "padding"
  | margin => "margin"

def longhand (spacing : Spacing) : Side → String
  | .top => spacing.shorthand ++ "Top"
  | .right => spacing.shorthand ++ "Right"
  | .bottom => spacing.shorthand ++ "Bottom"
  | .left => spacing.shorthand ++ "Left"

/-- The style property of the axis that the side is on. -/
def axis (spacing : Spacing) : Side → String
  | .top | .bottom => spacing.shorthand ++ "Y"
  | .right | .left => spacing.shorthand ++ "X"

/-- The style property is about the side, alone or with others. -/
def Covers (spacing : Spacing) (side : Side) (property : String) : Prop :=
  property = spacing.shorthand ∨ property = spacing.longhand side ∨ property = spacing.axis side

instance (spacing : Spacing) (side : Side) (property : String) :
    Decidable (spacing.Covers side property) :=
  inferInstanceAs (Decidable (_ ∨ _ ∨ _))

/-- The CSS property sets the side. -/
def Sets (spacing : Spacing) (side : Side) (css : String) : Prop :=
  css = spacing.shorthand ∨ css = spacing.longhand side

instance (spacing : Spacing) (side : Side) (css : String) : Decidable (spacing.Sets side css) :=
  inferInstanceAs (Decidable (_ ∨ _))

/-- One declaration, read behind others that have given the sides their values. -/
def read (spacing : Spacing) (sides : Side → Option String) (d : String × String) :
    Side → Option String :=
  fun side => if spacing.Sets side d.1 then some d.2 else sides side

/-- The values of the sides after all declarations, from first to last. -/
def readAll (spacing : Spacing) (declarations : List (String × String)) : Side → Option String :=
  declarations.foldl spacing.read fun _ => none

/-- The shorthand, with a raw value, is one of the entries and stands behind another one that covers the
side. -/
def ShorthandBehind (spacing : Spacing) (side : Side) (entries : List (String × String))
    (raw : String) : Prop :=
  ∃ before between, entries = before ++ (spacing.shorthand, raw) :: between ∧
    ∃ e ∈ before, spacing.Covers side e.1

/-! ## Reading declarations -/

section Reading

variable {spacing : Spacing} {side : Side}

theorem foldl_read_of_not_sets {declarations : List (String × String)}
    (h : ∀ d ∈ declarations, ¬ spacing.Sets side d.1) : ∀ sides : Side → Option String,
      declarations.foldl spacing.read sides side = sides side := by
  induction declarations with
  | nil => intro sides; rfl
  | cons d rest ih =>
    intro sides
    obtain ⟨hd, hrest⟩ := List.forall_mem_cons.mp h
    rw [List.foldl_cons, ih hrest, read, if_neg hd]

theorem readAll_eq_none {declarations : Declarations}
    (h : ∀ css ∈ declarations.keys, ¬ spacing.Sets side css) :
    spacing.readAll declarations.entries side = none :=
  foldl_read_of_not_sets (fun _ hd => h _ (List.mem_map_of_mem hd)) _

/-- The last declaration that sets the side decides. -/
theorem readAll_last {declarations : Declarations} {before after : List String} {css : String}
    (hkeys : declarations.keys = before ++ css :: after) (hcss : spacing.Sets side css)
    (hafter : ∀ other ∈ after, ¬ spacing.Sets side other) :
    spacing.readAll declarations.entries side = declarations.get? css := by
  obtain ⟨front, back, hentries, -, hback⟩ := List.map_eq_append_iff.mp hkeys
  obtain ⟨⟨_, value⟩, rest, rfl, rfl, hrest⟩ := List.map_eq_cons_iff.mp hback
  have hunset : ∀ d ∈ rest, ¬ spacing.Sets side d.1 := fun d hd =>
    hafter d.1 (hrest ▸ List.mem_map_of_mem hd)
  rw [OrderedMap.get?_of_split hentries, readAll, hentries, List.foldl_append, List.foldl_cons,
    foldl_read_of_not_sets hunset, read, if_pos hcss]

end Reading
end Spacing

/-! ## The properties that cover a side -/

theorem Generator.mem_all_of_find? {property : String} {generator : Generator}
    (h : find? property = some generator) : (property, generator) ∈ all := mem_of_lookup h

theorem Style.exists_of_mem_emitted {property css : String} (h : css ∈ emitted property) :
    ∃ generator, (property, generator) ∈ Generator.all ∧ css ∈ generator.emits := by
  unfold emitted at h
  cases hg : Generator.find? property with
  | none => rw [hg] at h; cases h
  | some generator =>
    rw [hg] at h
    exact ⟨generator, Generator.mem_all_of_find? hg, h⟩

namespace Spacing

variable {spacing : Spacing} {side : Side}

theorem shorthand_mem_emits (spacing : Spacing) : ∀ e ∈ Generator.all,
    spacing.shorthand ∈ e.2.emits → e.1 = spacing.shorthand := by
  cases spacing <;> decide +kernel

theorem longhand_mem_emits (spacing : Spacing) (side : Side) : ∀ e ∈ Generator.all,
    spacing.longhand side ∈ e.2.emits → e.1 = spacing.longhand side ∨ e.1 = spacing.axis side := by
  cases spacing <;> cases side <;> decide +kernel

theorem emitted_shorthand (spacing : Spacing) :
    Style.emitted spacing.shorthand = [spacing.shorthand] := by
  cases spacing <;> decide +kernel

theorem longhand_ne_shorthand (spacing : Spacing) (side : Side) :
    spacing.longhand side ≠ spacing.shorthand := by
  cases spacing <;> cases side <;> decide

theorem shorthand_mem_emitted {property : String} :
    spacing.shorthand ∈ Style.emitted property ↔ property = spacing.shorthand := by
  constructor
  · intro h
    obtain ⟨generator, hmem, hemits⟩ := Style.exists_of_mem_emitted h
    exact shorthand_mem_emits spacing _ hmem hemits
  · rintro rfl
    rw [emitted_shorthand]
    exact List.mem_singleton_self _

theorem longhand_mem_emitted {property : String} :
    spacing.longhand side ∈ Style.emitted property ↔
      property = spacing.longhand side ∨ property = spacing.axis side := by
  constructor
  · intro h
    obtain ⟨generator, hmem, hemits⟩ := Style.exists_of_mem_emitted h
    exact longhand_mem_emits spacing side _ hmem hemits
  · rintro (rfl | rfl) <;> cases spacing <;> cases side <;> decide +kernel

theorem covers_iff {property : String} :
    spacing.Covers side property ↔
      property = spacing.shorthand ∨ spacing.longhand side ∈ Style.emitted property := by
  rw [longhand_mem_emitted, Covers]

theorem shorthand_not_mem_emittedAll {entries : List (String × String)}
    (h : ∀ e ∈ entries, e.1 ≠ spacing.shorthand) :
    spacing.shorthand ∉ Style.emittedAll entries := by
  rw [Style.mem_emittedAll]
  rintro ⟨e, he, hemitted⟩
  exact h e he (shorthand_mem_emitted.mp hemitted)

theorem longhand_not_mem_emittedAll {entries : List (String × String)}
    (h : ∀ e ∈ entries, ¬ spacing.Covers side e.1) :
    spacing.longhand side ∉ Style.emittedAll entries := by
  rw [Style.mem_emittedAll]
  rintro ⟨e, he, hemitted⟩
  exact h e he (covers_iff.mpr (.inr hemitted))

/-! ## Which entry decides -/

section Styles

variable {utilities : Utilities} {styles : StyleMap}

/-- Of the CSS properties that set the side, the one that is first set last decides. -/
theorem readAll_declared {before after : List String} {css : String}
    (hsplit : Style.emittedAll styles.entries = before ++ css :: after)
    (hcss : spacing.Sets side css) (hfirst : css ∉ before)
    (hafter : ∀ other ∈ after, spacing.Sets side other → other = css ∨ other ∈ before) :
    spacing.readAll (Style.declared utilities styles).entries side =
      (Style.declared utilities styles).get? css := by
  obtain ⟨rest, hrest, hnew⟩ := eraseDups_split after hfirst
  refine readAll_last (Style.keys_declared utilities styles ▸ hsplit ▸ hrest) hcss ?_
  intro other hother hsets
  obtain ⟨hmem, hne, hnot⟩ := hnew other hother
  exact (hafter other hmem hsets).elim hne hnot

/-- The shorthand decides if another entry for the side stands in front of it, or none behind it. -/
theorem readAll_shorthand {before after : List (String × String)} {raw : String}
    (hsplit : styles.entries = before ++ (spacing.shorthand, raw) :: after)
    (h : (∃ e ∈ before, spacing.Covers side e.1) ∨ ∀ e ∈ after, ¬ spacing.Covers side e.1) :
    ∃ value, Style.resolved? utilities (spacing.shorthand, raw) = some value ∧
      spacing.readAll (Style.declared utilities styles).entries side = some value := by
  obtain ⟨hbefore, hafter⟩ := OrderedMap.ne_key_of_split hsplit
  obtain ⟨value, hresolved, hvalue⟩ := Style.get?_declared utilities hsplit
    (shorthand_mem_emitted.mpr rfl) (shorthand_not_mem_emittedAll hafter)
  have hset : Style.emittedAll styles.entries =
      Style.emittedAll before ++ spacing.shorthand :: Style.emittedAll after := by
    rw [hsplit, Style.emittedAll_split, emitted_shorthand]
    rfl
  refine ⟨value, hresolved, ?_⟩
  rw [← hvalue]
  refine readAll_declared hset (.inl rfl) (shorthand_not_mem_emittedAll hbefore) ?_
  rintro other hother (rfl | rfl)
  · exact .inl rfl
  · rcases h with ⟨e, he, hcovers⟩ | hnone
    · have hlonghand := (covers_iff.mp hcovers).resolve_left (hbefore e he)
      exact .inr (Style.mem_emittedAll.mpr ⟨e, he, hlonghand⟩)
    · exact absurd hother (longhand_not_mem_emittedAll hnone)

/-- Where the shorthand is not behind another entry for the side, it is set in front of the side itself, if
at all. -/
theorem exists_first_longhand {earlier later : List (String × String)} {e : String × String}
    (he : spacing.longhand side ∈ Style.emitted e.1)
    (hlater : ∀ other ∈ later, ¬ spacing.Covers side other.1)
    (hbehind : ¬ ∃ raw, spacing.ShorthandBehind side earlier raw) :
    ∃ before after, Style.emittedAll (earlier ++ e :: later) =
        before ++ spacing.longhand side :: after ∧ spacing.longhand side ∉ before ∧
      (spacing.shorthand ∈ after → spacing.shorthand ∈ before) := by
  have hset : ∀ front, spacing.longhand side ∈ Style.emittedAll (front ++ e :: later) := fun front =>
    Style.mem_emittedAll.mpr ⟨e, List.mem_append_right front List.mem_cons_self, he⟩
  by_cases hshorthand : spacing.shorthand ∈ earlier.map Prod.fst
  · obtain ⟨⟨property, raw⟩, hmem, rfl⟩ := List.mem_map.mp hshorthand
    obtain ⟨front, between, rfl⟩ := List.append_of_mem hmem
    -- the side itself is set for the first time behind the shorthand
    have hfront : spacing.longhand side ∉ Style.emittedAll front :=
      longhand_not_mem_emittedAll fun other hother hcovers =>
        hbehind ⟨raw, front, between, rfl, other, hother, hcovers⟩
    obtain ⟨before, after, hsplit, hfirst⟩ := List.eq_append_cons_of_mem (hset between)
    refine ⟨Style.emittedAll front ++ spacing.shorthand :: before, after, ?_, ?_,
      fun _ => List.mem_append_right _ List.mem_cons_self⟩
    · rw [List.append_assoc, List.cons_append, Style.emittedAll_split, emitted_shorthand, hsplit,
        List.append_assoc]
      rfl
    · rw [List.mem_append, List.mem_cons, not_or, not_or]
      exact ⟨hfront, longhand_ne_shorthand spacing side, hfirst⟩
  · obtain ⟨before, after, hsplit, hfirst⟩ := List.eq_append_cons_of_mem (hset earlier)
    have hnone : spacing.shorthand ∉ Style.emittedAll (earlier ++ e :: later) := by
      refine shorthand_not_mem_emittedAll fun other hother heq => ?_
      rw [List.mem_append, List.mem_cons] at hother
      rcases hother with hearlier | rfl | hlate
      · exact hshorthand (List.mem_map.mpr ⟨other, hearlier, heq⟩)
      · rw [heq, emitted_shorthand, List.mem_singleton] at he
        exact longhand_ne_shorthand spacing side he
      · exact hlater other hlate (.inl heq)
    refine ⟨before, after, hsplit, hfirst, fun hafter => absurd ?_ hnone⟩
    rw [hsplit]
    exact List.mem_append_right _ (List.mem_cons_of_mem _ hafter)

/-- The declaration of the side decides, with the value of the last entry for it, if the shorthand is not
behind the first of them. -/
theorem readAll_longhand {earlier later : List (String × String)} {e : String × String}
    (hsplit : styles.entries = earlier ++ e :: later)
    (he : spacing.longhand side ∈ Style.emitted e.1)
    (hlater : ∀ other ∈ later, ¬ spacing.Covers side other.1)
    (hbehind : ¬ ∃ raw, spacing.ShorthandBehind side earlier raw) :
    ∃ value, Style.resolved? utilities e = some value ∧
      spacing.readAll (Style.declared utilities styles).entries side = some value := by
  obtain ⟨value, hresolved, hvalue⟩ := Style.get?_declared utilities hsplit he
    (longhand_not_mem_emittedAll hlater)
  obtain ⟨before, after, hset, hfirst, hshorthand⟩ := exists_first_longhand he hlater hbehind
  refine ⟨value, hresolved, ?_⟩
  rw [← hvalue]
  refine readAll_declared (hsplit ▸ hset) (.inr rfl) hfirst ?_
  rintro other hother (rfl | rfl)
  · exact .inr (hshorthand hother)
  · exact .inl rfl

end Styles
end Spacing

/-- The last entry that covers a side decides what the side is in the end, unless the shorthand stands in
front of it and behind another entry for the side: then the shorthand does. A side that no entry covers is
not set. -/
theorem declare_sides (tokens : TokenTable) (className : String) {styles : StyleMap}
    (h : Style.Registered styles) :
    ∃ declarations, Style.declare tokens className styles = .ok declarations ∧
      ∀ (spacing : Spacing) (side : Side),
        ((∀ e ∈ styles.entries, ¬ spacing.Covers side e.1) →
          spacing.readAll declarations.entries side = none) ∧
        ∀ earlier e later, styles.entries = earlier ++ e :: later → spacing.Covers side e.1 →
          (∀ other ∈ later, ¬ spacing.Covers side other.1) →
          ((¬ ∃ raw, spacing.ShorthandBehind side earlier raw) →
            ∃ value, Style.resolved? tokens e = some value ∧
              spacing.readAll declarations.entries side = some value) ∧
          ∀ raw, spacing.ShorthandBehind side earlier raw →
            ∃ value, Style.resolved? tokens (spacing.shorthand, raw) = some value ∧
              spacing.readAll declarations.entries side = some value := by
  refine ⟨_, Style.declare_eq tokens className h, fun spacing side => ⟨?_, ?_⟩⟩
  · intro hnone
    refine Spacing.readAll_eq_none fun css hcss hsets => ?_
    rw [Style.keys_declared, List.mem_eraseDups] at hcss
    rcases hsets with rfl | rfl
    · exact Spacing.shorthand_not_mem_emittedAll (fun e he heq => hnone e he (.inl heq)) hcss
    · exact Spacing.longhand_not_mem_emittedAll hnone hcss
  · intro earlier e later hsplit hcovers hlater
    refine ⟨fun hbehind => ?_, ?_⟩
    · rcases Spacing.covers_iff.mp hcovers with heq | hlonghand
      · obtain ⟨property, raw⟩ := e
        subst heq
        exact Spacing.readAll_shorthand hsplit (.inr hlater)
      · exact Spacing.readAll_longhand hsplit hlonghand hlater hbehind
    · rintro raw ⟨before, between, rfl, first, hfirst, hcovers⟩
      rw [List.append_assoc, List.cons_append] at hsplit
      exact Spacing.readAll_shorthand hsplit (.inl ⟨first, hfirst, hcovers⟩)

/-- The shorthand between the two entries that cover the top. -/
def crossedPadding : StyleMap :=
  .ofList [("paddingTop", "1px"), ("padding", "2px"), ("paddingY", "3px")]

/-- At the top the shorthand decides, at the bottom the axis, which is the last entry for both. -/
theorem crossedPadding_sides :
    Style.Registered crossedPadding ∧
      ∃ declarations, Style.declare oneRem "card" crossedPadding = .ok declarations ∧
        Spacing.padding.readAll declarations.entries .top = some "2px" ∧
        Spacing.padding.readAll declarations.entries .bottom = some "3px" ∧
        Spacing.margin.readAll declarations.entries .left = none := by
  have hstyles : Style.Registered crossedPadding := by decide
  have hsplit : crossedPadding.entries =
      [("paddingTop", "1px"), ("padding", "2px")] ++ ("paddingY", "3px") :: [] := by decide
  have htop : Spacing.padding.ShorthandBehind .top [("paddingTop", "1px"), ("padding", "2px")] "2px" :=
    ⟨[("paddingTop", "1px")], [], rfl, _, List.mem_cons_self, by decide⟩
  have hbottom : ¬ ∃ raw, Spacing.padding.ShorthandBehind .bottom
      [("paddingTop", "1px"), ("padding", "2px")] raw := by
    rintro ⟨raw, before, between, hbetween, e, he, hcovers⟩
    match before with
    | [] => cases he
    | [first] =>
      rw [List.mem_singleton.mp he, ← (List.cons.inj hbetween).1] at hcovers
      exact absurd hcovers (by decide)
    | _ :: _ :: _ => simp at hbetween
  obtain ⟨declarations, hdeclare, hsides⟩ := declare_sides oneRem "card" hstyles
  obtain ⟨-, hdecides⟩ := hsides .padding .top
  obtain ⟨value, hvalue, hread⟩ := (hdecides _ _ _ hsplit (by decide) (by simp)).2 "2px" htop
  obtain ⟨-, hdecides'⟩ := hsides .padding .bottom
  obtain ⟨value', hvalue', hread'⟩ := (hdecides' _ _ _ hsplit (by decide) (by simp)).1 hbottom
  cases hvalue
  cases hvalue'
  exact ⟨hstyles, declarations, hdeclare, hread, hread', (hsides .margin .left).1 (by decide)⟩

/-- The last entry for the top is the axis, and the top does not get its value. -/
theorem crossedPadding_outlasted :
    Style.Registered crossedPadding ∧
      crossedPadding.entries =
        [("paddingTop", "1px"), ("padding", "2px")] ++ ("paddingY", "3px") :: [] ∧
      Spacing.padding.Covers .top "paddingY" ∧
      Style.resolved? oneRem ("paddingY", "3px") = some "3px" ∧
      ∃ declarations, Style.declare oneRem "card" crossedPadding = .ok declarations ∧
        declarations.entries =
          [("paddingTop", "3px"), ("padding", "2px"), ("paddingBottom", "3px")] ∧
        Spacing.padding.readAll declarations.entries .top ≠ some "3px" := by
  have hstyles : Style.Registered crossedPadding := by decide
  have hentries : (Style.declared oneRem crossedPadding).entries =
      [("paddingTop", "3px"), ("padding", "2px"), ("paddingBottom", "3px")] := by decide +kernel
  refine ⟨hstyles, by decide, by decide, by decide +kernel, _, Style.declare_eq _ _ hstyles, hentries, ?_⟩
  rw [hentries]
  decide

end ThemeRules
