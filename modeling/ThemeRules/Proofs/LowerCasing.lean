import ThemeRules.Proofs.WordBoundaries

/-!
# ThemeRules.Proofs.LowerCasing

What has been lower-cased stays as it is. The lower-case letters of a range of capitals are in no range of
capitals themselves, and no separators: a check of every two ranges of the table (`ranges_clear`), which
compares their ends and, where capitals and small letters alternate, their parity. The exceptions, a
capital sigma and a capital I with a dot, are looked at one by one (`IsLowered`).
-/

namespace ThemeRules
namespace Text

/-! ## The table -/

namespace CaseRange

/-- The first lower-case letter of the range. -/
def low (r : CaseRange) : Nat := Int.toNat (r.first + r.offset)

/-- The last lower-case letter of the range. -/
def high (r : CaseRange) : Nat := Int.toNat (r.last + r.offset)

/-- No lower-case letter of the range is covered by `other`: the letters lie in front of `other` or behind
it, or alternate with its code points. -/
def isClearOf (r other : CaseRange) : Bool :=
  r.high.blt other.first || other.last.blt r.low ||
    (other.step.beq 2 && (r.step.beq 2 || r.first.beq r.last) && ((r.low + other.first) % 2).beq 1)

theorem covers_iff {r : CaseRange} {n : Nat} :
    r.covers n = true ↔ r.first ≤ n ∧ n ≤ r.last ∧ (n - r.first) % r.step = 0 := by
  simp only [covers, Bool.and_eq_true, decide_eq_true_eq, beq_iff_eq, and_assoc]

theorem covers_of_isClearOf {r other : CaseRange} (h : r.isClearOf other = true) {n : Nat}
    (hn : r.covers n = true) (hpos : 0 ≤ r.first + r.offset) :
    other.covers (Int.toNat (n + r.offset)) = false := by
  simp only [isClearOf, low, high, Bool.or_eq_true, Bool.and_eq_true, Nat.blt_eq,
    Nat.beq_eq] at h
  rw [Bool.eq_false_iff, ne_eq, covers_iff]
  rw [covers_iff] at hn
  rintro ⟨hfirst, hlast, hstep⟩
  rcases h with (h | h) | ⟨⟨htwo', htwo | hsame⟩, hodd⟩
  · omega
  · omega
  · rw [htwo] at hn
    rw [htwo'] at hstep
    omega
  · rw [htwo'] at hstep
    omega

end CaseRange

/-- What is no lower-case letter of any range: the separators, the capital I with a dot, and the code
points that are no characters. -/
def unusedRanges : List CaseRange := [
  ⟨0x09, 0x0D, 1, 0⟩, ⟨0x20, 0x20, 1, 0⟩, ⟨0x5F, 0x5F, 1, 0⟩, ⟨0x85, 0x85, 1, 0⟩, ⟨0xA0, 0xA0, 1, 0⟩,
  ⟨0x130, 0x130, 1, 0⟩, ⟨0x1680, 0x1680, 1, 0⟩, ⟨0x2000, 0x200A, 1, 0⟩, ⟨0x2028, 0x2029, 1, 0⟩,
  ⟨0x202F, 0x202F, 1, 0⟩, ⟨0x205F, 0x205F, 1, 0⟩, ⟨0x3000, 0x3000, 1, 0⟩, ⟨0xD800, 0xDFFF, 1, 0⟩]

theorem ranges_clear :
    (caseRanges.all fun r => (caseRanges ++ unusedRanges).all r.isClearOf) = true := by
  decide +kernel

theorem ranges_bounded : ∀ r ∈ caseRanges, 0 ≤ r.first + r.offset ∧ r.high < 0x110000 := by
  decide +kernel

theorem covers_solid {first last n : Nat} {offset : Int} :
    CaseRange.covers ⟨first, last, 1, offset⟩ n = false ↔ n < first ∨ last < n := by
  rw [Bool.eq_false_iff, ne_eq, CaseRange.covers_iff]
  simp only [Nat.mod_one, and_true]
  omega

/-- The code point of a lower-case letter is that of a character, and covered by no range. -/
theorem lowered_uncovered {r : CaseRange} (hr : r ∈ caseRanges) {n : Nat} (hn : r.covers n = true) :
    (Int.toNat (n + r.offset)).isValidChar ∧
      ∀ other ∈ caseRanges ++ unusedRanges, other.covers (Int.toNat (n + r.offset)) = false := by
  obtain ⟨hpos, hhigh⟩ := ranges_bounded r hr
  have huncovered : ∀ other ∈ caseRanges ++ unusedRanges,
      other.covers (Int.toNat (n + r.offset)) = false := fun other hother =>
    CaseRange.covers_of_isClearOf
      (List.all_eq_true.mp (List.all_eq_true.mp ranges_clear r hr) other hother) hn hpos
  refine ⟨?_, huncovered⟩
  have hsurrogate : (⟨0xD800, 0xDFFF, 1, 0⟩ : CaseRange) ∈ unusedRanges := by decide
  have hoff := covers_solid.mp (huncovered _ (List.mem_append_right _ hsurrogate))
  have hlast := (CaseRange.covers_iff.mp hn).2.1
  rw [CaseRange.high] at hhigh
  unfold Nat.isValidChar
  omega

theorem toNat_ofNat {n : Nat} (h : n.isValidChar) : (Char.ofNat n).toNat = n := by
  rw [Char.ofNat, dif_pos h]
  rfl

/-- A character is its own lower-case letter, or the lower-case letter is covered by no range. -/
theorem lowerChar_cases (c : Char) :
    (lowerChar c = c ∧ ∀ r ∈ caseRanges, r.covers c.toNat = false) ∨
      ∀ r ∈ caseRanges ++ unusedRanges, r.covers (lowerChar c).toNat = false := by
  unfold lowerChar
  split
  · rename_i r hr
    have hcovers := List.find?_some (p := fun r : CaseRange => r.covers c.toNat) hr
    obtain ⟨hvalid, huncovered⟩ := lowered_uncovered (List.mem_of_find?_eq_some hr) hcovers
    rw [toNat_ofNat hvalid]
    exact .inr huncovered
  · rename_i hnone
    refine .inl ⟨rfl, fun r hr => ?_⟩
    simpa using List.find?_eq_none.mp hnone r hr

/-! ## Characters -/

/-- Lower-casing leaves the character as it is, wherever it stands. -/
structure IsSettled (c : Char) : Prop where
  uncovered : ∀ r ∈ caseRanges, r.covers c.toNat = false
  ne_dottedI : c ≠ capitalDottedI

namespace IsSettled

variable {c : Char}

theorem lowerChar_eq (h : IsSettled c) : lowerChar c = c := by
  have hnone : caseRanges.find? (·.covers c.toNat) = none := by
    rw [List.find?_eq_none]
    intro r hr
    rw [h.uncovered r hr]
    exact Bool.false_ne_true
  rw [lowerChar, hnone]

theorem ne_capitalSigma (h : IsSettled c) : c ≠ capitalSigma := by
  rintro rfl
  have hsigma : (⟨0x3A3, 0x3AB, 1, 32⟩ : CaseRange) ∈ caseRanges := by decide
  exact absurd (h.uncovered _ hsigma) (by decide)

theorem isAsciiUpper_eq (h : IsSettled c) : isAsciiUpper c = false := by
  have hcapitals : (⟨0x41, 0x5A, 1, 32⟩ : CaseRange) ∈ caseRanges := by decide
  have hoff := covers_solid.mp (h.uncovered _ hcapitals)
  rw [Bool.eq_false_iff, ne_eq, isAsciiUpper_iff]
  omega

end IsSettled

/-- What may be written for a character. -/
def IsLowered (c d : Char) : Prop :=
  if c = capitalSigma then d = smallSigma ∨ d = finalSigma
  else if c = capitalDottedI then d = 'i' ∨ d = combiningDot
  else d = lowerChar c

theorem isSeparator_of_uncovered {c : Char} (h : ∀ r ∈ unusedRanges, r.covers c.toNat = false) :
    isSeparator c = false := by
  simp only [unusedRanges, List.forall_mem_cons, covers_solid] at h
  rw [Bool.eq_false_iff, ne_eq, isSeparator_iff]
  rintro (hblank | rfl)
  · simp only [isBlank, Bool.or_eq_true, Bool.and_eq_true, decide_eq_true_eq, beq_iff_eq] at hblank
    omega
  · simp at h

namespace IsLowered

variable {c d : Char}

theorem isSettled (h : IsLowered c d) : IsSettled d := by
  unfold IsLowered at h
  split at h
  · rcases h with rfl | rfl <;> exact ⟨by decide +kernel, by decide⟩
  · split at h
    · rcases h with rfl | rfl <;> exact ⟨by decide +kernel, by decide⟩
    · rename_i hdotted
      subst h
      obtain ⟨heq, huncovered⟩ | huncovered := lowerChar_cases c
      · rw [heq]
        exact ⟨huncovered, hdotted⟩
      · refine ⟨fun r hr => huncovered r (List.mem_append_left _ hr), fun heq => ?_⟩
        have hdottedI : (⟨0x130, 0x130, 1, 0⟩ : CaseRange) ∈ unusedRanges := by decide
        have hoff := covers_solid.mp (huncovered _ (List.mem_append_right _ hdottedI))
        rw [heq] at hoff
        exact absurd hoff (by decide)

/-- Lower-casing makes no separators. -/
theorem isSeparator_eq (h : IsLowered c d) (hc : isSeparator c = false) : isSeparator d = false := by
  unfold IsLowered at h
  split at h
  · rcases h with rfl | rfl <;> decide
  · split at h
    · rcases h with rfl | rfl <;> decide
    · subst h
      obtain ⟨heq, -⟩ | huncovered := lowerChar_cases c
      · rwa [heq]
      · exact isSeparator_of_uncovered fun r hr => huncovered r (List.mem_append_right _ hr)

end IsLowered

/-! ## Texts -/

theorem exists_of_mem_lowerFrom {d : Char} {text : List Char} : ∀ {casedBefore : Bool},
    d ∈ lowerFrom casedBefore text → ∃ c ∈ text, IsLowered c d := by
  induction text with
  | nil => intro _ h; cases h
  | cons c rest ih =>
    intro casedBefore h
    rw [lowerFrom, List.mem_append] at h
    rcases h with h | h
    · refine ⟨c, List.mem_cons_self, ?_⟩
      unfold IsLowered
      split at h <;> rename_i hsigma
      · rw [if_pos hsigma]
        cases List.mem_singleton.mp h
        split
        · exact .inr rfl
        · exact .inl rfl
      · rw [if_neg hsigma]
        split at h <;> rename_i hdotted
        · rw [if_pos hdotted]
          simpa using h
        · rw [if_neg hdotted]
          exact List.mem_singleton.mp h
    · obtain ⟨c', hc', hd⟩ := ih h
      exact ⟨c', List.mem_cons_of_mem _ hc', hd⟩

theorem lowerFrom_settled {text : List Char} : ∀ {casedBefore : Bool},
    (∀ c ∈ text, IsSettled c) → lowerFrom casedBefore text = text := by
  induction text with
  | nil => intro _ _; rfl
  | cons c rest ih =>
    intro casedBefore h
    obtain ⟨hc, hrest⟩ := List.forall_mem_cons.mp h
    simp only [lowerFrom, if_neg hc.ne_capitalSigma, if_neg hc.ne_dottedI, hc.lowerChar_eq, ih hrest]
    rfl

theorem lower_settled {text : List Char} (h : ∀ c ∈ text, IsSettled c) : lower text = text :=
  lowerFrom_settled h

end Text
end ThemeRules
