import ThemeRules.Glob.Matching
import ThemeRules.Proofs.GlobParsing

/-!
# ThemeRules.Proofs.GlobMatching

What a text leaves behind a list of tokens, as a relation (`Leaves`). Literal tokens take away their own
bytes and nothing else, and no character begins like another one, so a text matches a pattern behind a
directory exactly if it is the directory, a separator and a text that matches the pattern on its own
(`isMatch_behind`).
-/

namespace ThemeRules
namespace Glob

/-- Behind matches of all tokens, one after the other, the rest may be left. -/
def Leaves : List Token → (text rest : Bytes) → Prop
  | [], text, rest => text = rest
  | token :: tokens, text, rest => ∃ middle ∈ token.remainders text, Leaves tokens middle rest

theorem mem_remainders (tokens : List Token) :
    ∀ (texts : List Bytes) (rest : Bytes),
      rest ∈ remainders tokens texts ↔ ∃ text ∈ texts, Leaves tokens text rest := by
  induction tokens with
  | nil =>
    intro texts rest
    rw [remainders]
    exact ⟨fun h => ⟨rest, h, rfl⟩, fun ⟨text, h, ht⟩ => ht ▸ h⟩
  | cons token tokens ih =>
    intro texts rest
    rw [remainders, ih]
    constructor
    · rintro ⟨middle, hm, hl⟩
      obtain ⟨text, ht, hm⟩ := List.mem_flatMap.mp (List.mem_eraseDups.mp hm)
      exact ⟨text, ht, middle, hm, hl⟩
    · rintro ⟨text, ht, middle, hm, hl⟩
      exact ⟨middle, List.mem_eraseDups.mpr (List.mem_flatMap.mpr ⟨text, ht, hm⟩), hl⟩

theorem leaves_append (first second : List Token) :
    ∀ (text rest : Bytes), Leaves (first ++ second) text rest ↔
      ∃ middle, Leaves first text middle ∧ Leaves second middle rest := by
  induction first with
  | nil =>
    intro text rest
    exact ⟨fun h => ⟨text, rfl, h⟩, fun ⟨_, ht, h⟩ => ht ▸ h⟩
  | cons token tokens ih =>
    intro text rest
    constructor
    · rintro ⟨m, hm, hl⟩
      obtain ⟨middle, h1, h2⟩ := (ih m rest).mp hl
      exact ⟨middle, ⟨m, hm, h1⟩, h2⟩
    · rintro ⟨middle, ⟨m, hm, h1⟩, h2⟩
      exact ⟨m, hm, (ih m rest).mpr ⟨middle, h1, h2⟩⟩

theorem isMatch_iff (tokens : List Token) (text : Bytes) :
    isMatch tokens text = true ↔ tokens = [.leading] ∨ Leaves tokens text [] := by
  unfold isMatch
  split
  · simp
  · rename_i hne
    rw [List.contains_iff_mem, mem_remainders]
    constructor
    · rintro ⟨text', ht, hl⟩
      rw [List.mem_singleton] at ht
      exact .inr (ht ▸ hl)
    · intro h
      exact ⟨text, List.mem_singleton_self text, h.resolve_left hne⟩

/-! ## Literal tokens -/

theorem mem_afterText (text : Bytes) :
    ∀ (whole rest : Bytes), rest ∈ afterText text whole ↔ whole = text ++ rest := by
  induction text with
  | nil =>
    intro whole rest
    rw [afterText, List.mem_singleton, List.nil_append]
    exact eq_comm
  | cons a text ih =>
    intro whole rest
    cases whole with
    | nil => simp [afterText]
    | cons b whole =>
      rw [afterText]
      by_cases hab : a = b
      · rw [if_pos hab, ih, hab, List.cons_append, List.cons.injEq]
        simp
      · rw [if_neg hab, List.cons_append, List.cons.injEq]
        exact ⟨fun h => (by cases h), fun h => absurd h.1.symm hab⟩

theorem encode_cons (c : Char) (text : List Char) :
    encode (c :: text) = String.utf8EncodeChar c ++ encode text := List.flatMap_cons

theorem encode_append (first second : List Char) :
    encode (first ++ second) = encode first ++ encode second := List.flatMap_append

theorem encode_slash (text : List Char) : encode ('/' :: text) = slash :: encode text := rfl

theorem leaves_literal (dir : List Char) :
    ∀ (text rest : Bytes), Leaves (dir.map .literal) text rest ↔ text = encode dir ++ rest := by
  induction dir with
  | nil => intro text rest; exact Iff.rfl
  | cons c dir ih =>
    intro text rest
    rw [List.map_cons, encode_cons, List.append_assoc]
    constructor
    · rintro ⟨middle, hm, hl⟩
      rw [Token.remainders, mem_afterText] at hm
      rw [hm, (ih middle rest).mp hl]
    · intro h
      refine ⟨encode dir ++ rest, ?_, (ih _ rest).mpr rfl⟩
      rw [Token.remainders, mem_afterText]
      exact h

/-! ## Characters and their bytes -/

/-- The bytes of a character are not the start of those of another one. -/
theorem utf8EncodeChar_append_inj {c d : Char} {rest more : Bytes}
    (h : String.utf8EncodeChar c ++ rest = String.utf8EncodeChar d ++ more) : c = d ∧ rest = more := by
  have hc := ByteArray.utf8DecodeChar?_utf8EncodeChar_append (b := rest.toByteArray) (c := c)
  have hd := ByteArray.utf8DecodeChar?_utf8EncodeChar_append (b := more.toByteArray) (c := d)
  rw [← List.toByteArray_append] at hc hd
  rw [h, hd] at hc
  have hcd : c = d := (Option.some.inj hc).symm
  rw [hcd] at h
  exact ⟨hcd, List.append_cancel_left h⟩

theorem encode_eq_append (dir : List Char) :
    ∀ {text : List Char} {rest : Bytes}, encode text = encode dir ++ rest →
      ∃ tail, text = dir ++ tail ∧ rest = encode tail := by
  induction dir with
  | nil => intro text rest h; exact ⟨text, rfl, h.symm⟩
  | cons c dir ih =>
    intro text rest h
    rw [encode_cons, List.append_assoc] at h
    cases text with
    | nil => exact absurd (List.append_eq_nil_iff.mp h.symm).1 String.utf8EncodeChar_ne_nil
    | cons d text =>
      rw [encode_cons] at h
      obtain ⟨rfl, htext⟩ := utf8EncodeChar_append_inj h
      obtain ⟨tail, rfl, hr⟩ := ih htext
      exact ⟨tail, rfl, hr⟩

/-- A pattern without wildcards matches itself alone. -/
theorem isMatch_literal (pattern text : List Char) :
    isMatch (pattern.map .literal) (encode text) = true ↔ text = pattern := by
  rw [isMatch_iff, leaves_literal, List.append_nil]
  constructor
  · rintro (h | h)
    · cases pattern with
      | nil => cases h
      | cons c pattern => cases (List.cons.inj h).1
    · rw [← List.append_nil (encode pattern)] at h
      obtain ⟨tail, ht, hn⟩ := encode_eq_append pattern h
      cases tail with
      | nil => rw [ht, List.append_nil]
      | cons c tail =>
        rw [encode_cons] at hn
        exact absurd (List.append_eq_nil_iff.mp hn.symm).1 String.utf8EncodeChar_ne_nil
  · intro h
    exact .inr (by rw [h])

/-! ## Behind a directory -/

theorem nil_mem_suffixes (text : Bytes) : [] ∈ suffixes text := by
  induction text with
  | nil => exact List.mem_singleton_self _
  | cons b rest ih => exact List.mem_cons_of_mem _ ih

theorem leaves_slash (tokens : List Token) (text rest : Bytes) :
    Leaves (.literal '/' :: tokens) text rest ↔
      ∃ tail, text = slash :: tail ∧ Leaves tokens tail rest := by
  constructor
  · rintro ⟨middle, hm, hl⟩
    rw [Token.remainders, mem_afterText] at hm
    exact ⟨middle, hm, hl⟩
  · rintro ⟨tail, rfl, hl⟩
    refine ⟨tail, ?_, hl⟩
    rw [Token.remainders, mem_afterText]
    rfl

/-- Directories in the middle are a separator and directories at the start. -/
theorem leaves_between (tokens : List Token) (text rest : Bytes) :
    Leaves (.between :: tokens) text rest ↔
      ∃ tail, text = slash :: tail ∧ Leaves (.leading :: tokens) tail rest := by
  cases text with
  | nil => simp [Leaves, Token.remainders]
  | cons b tail =>
    by_cases hb : b = slash
    · simp [Leaves, Token.remainders, hb]
    · simp [Leaves, Token.remainders, hb]

theorem leaves_trailing (text : Bytes) :
    Leaves [.trailing] text [] ↔ ∃ tail, text = slash :: tail := by
  cases text with
  | nil => simp [Leaves, Token.remainders]
  | cons b tail =>
    by_cases hb : b = slash
    · simp [Leaves, Token.remainders, hb, nil_mem_suffixes]
    · simp [Leaves, Token.remainders, hb]

theorem Anchored.leaves {dir tokens whole : List Token} (h : Anchored dir tokens whole)
    (text : Bytes) :
    Leaves whole text [] ↔
      ∃ tail, Leaves dir text (slash :: tail) ∧ isMatch tokens tail = true := by
  cases h with
  | same hl =>
    have hne : tokens ≠ [.leading] := fun h => hl (h ▸ List.mem_singleton_self _)
    simp only [leaves_append, leaves_slash, isMatch_iff, or_iff_right hne]
    constructor
    · rintro ⟨_, hd, tail, rfl, hl⟩
      exact ⟨tail, hd, hl⟩
    · rintro ⟨tail, hd, hl⟩
      exact ⟨_, hd, tail, rfl, hl⟩
  | @between tokens hne =>
    have hne : .leading :: tokens ≠ [.leading] := fun h => hne (List.cons.inj h).2
    simp only [leaves_append, leaves_between, isMatch_iff, or_iff_right hne]
    constructor
    · rintro ⟨_, hd, tail, rfl, hl⟩
      exact ⟨tail, hd, hl⟩
    · rintro ⟨tail, hd, hl⟩
      exact ⟨_, hd, tail, rfl, hl⟩
  | trailing =>
    simp only [leaves_append, leaves_trailing, isMatch_iff, true_or, and_true]
    constructor
    · rintro ⟨_, hd, tail, rfl⟩
      exact ⟨tail, hd⟩
    · rintro ⟨tail, hd⟩
      exact ⟨_, hd, tail, rfl⟩

theorem Anchored.ne_leading {dir tokens whole : List Token} (h : Anchored dir tokens whole)
    (hdir : .leading ∉ dir) : whole ≠ [.leading] := by
  have hlast : ∀ {token : Token} {rest : List Token}, token ≠ .leading →
      dir ++ token :: rest ≠ [.leading] := by
    intro token rest ht hw
    cases dir with
    | nil => exact ht (List.cons.inj hw).1
    | cons d dir => simp at hw
  cases h with
  | same _ => exact hlast (by simp)
  | between _ => exact hlast (by simp)
  | trailing => exact hlast (by simp)

/-- A text matches a pattern behind a directory if what follows the directory matches the pattern. -/
theorem isMatch_behind {dir : List Char} {tokens whole : List Token}
    (h : Anchored (dir.map .literal) tokens whole) (text : List Char) :
    isMatch whole (encode text) = true ↔
      ∃ tail, text = dir ++ '/' :: tail ∧ isMatch tokens (encode tail) = true := by
  have hdir : Token.leading ∉ dir.map .literal := by simp
  rw [isMatch_iff, or_iff_right (h.ne_leading hdir), h.leaves]
  constructor
  · rintro ⟨rest, hl, hm⟩
    rw [leaves_literal, ← List.singleton_append, ← List.append_assoc] at hl
    obtain ⟨tail, ht, rfl⟩ := encode_eq_append (dir ++ ['/']) (by rw [hl, encode_append]; rfl)
    exact ⟨tail, by rw [ht]; simp, hm⟩
  · rintro ⟨tail, rfl, hm⟩
    refine ⟨encode tail, ?_, hm⟩
    rw [leaves_literal, encode_append, encode_slash]

end Glob
end ThemeRules
