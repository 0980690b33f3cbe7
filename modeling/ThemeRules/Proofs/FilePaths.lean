import ThemeRules.FileSystem

/-!
# ThemeRules.Proofs.FilePaths

Paths as texts and as components. Below a directory, the names that lead to a file are appended to the
text of the directory, with separators between them (`below_eq`), and to its components
(`components_below`). Sorting paths puts them in the order of their components, which is total
(`sort_pairwise`).
-/

namespace ThemeRules

/-- A name that a directory can hold. -/
structure IsName (name : List Char) : Prop where
  ne_nil : name ≠ []
  no_slash : '/' ∉ name
  ne_dot : name ≠ ['.']
  ne_dots : name ≠ ['.', '.']

instance (name : List Char) : Decidable (IsName name) :=
  decidable_of_iff (name ≠ [] ∧ '/' ∉ name ∧ name ≠ ['.'] ∧ name ≠ ['.', '.'])
    ⟨fun ⟨hne, hslash, hdot, hdots⟩ => ⟨hne, hslash, hdot, hdots⟩,
      fun h => ⟨h.ne_nil, h.no_slash, h.ne_dot, h.ne_dots⟩⟩

/-! ## Texts between separators -/

theorem splitSlash_ne_nil (s : List Char) : splitSlash s ≠ [] := by
  cases s with
  | nil => simp [splitSlash]
  | cons c rest =>
    simp only [splitSlash]
    split
    · simp
    · split <;> simp

theorem splitSlash_slash (rest : List Char) :
    splitSlash ('/' :: rest) = [] :: splitSlash rest := by
  simp [splitSlash]

theorem splitSlash_cons {c : Char} (hc : c ≠ '/') {rest part : List Char}
    {parts : List (List Char)} (h : splitSlash rest = part :: parts) :
    splitSlash (c :: rest) = (c :: part) :: parts := by
  simp [splitSlash, hc, h]

theorem splitSlash_append_slash (first second : List Char) :
    splitSlash (first ++ '/' :: second) = splitSlash first ++ splitSlash second := by
  induction first with
  | nil => exact splitSlash_slash second
  | cons c rest ih =>
    by_cases hc : c = '/'
    · subst hc
      rw [List.cons_append, splitSlash_slash, splitSlash_slash, ih, List.cons_append]
    · obtain ⟨part, parts, hp⟩ := List.exists_cons_of_ne_nil (splitSlash_ne_nil rest)
      rw [hp, List.cons_append] at ih
      rw [List.cons_append, splitSlash_cons hc ih, splitSlash_cons hc hp, List.cons_append]

theorem splitSlash_of_no_slash {s : List Char} (h : '/' ∉ s) : splitSlash s = [s] := by
  induction s with
  | nil => rfl
  | cons c rest ih =>
    simp only [List.mem_cons, not_or] at h
    exact splitSlash_cons (fun hc => h.1 hc.symm) (ih h.2)

theorem joinSlash_cons {part : List Char} {parts : List (List Char)} (h : parts ≠ []) :
    joinSlash (part :: parts) = part ++ '/' :: joinSlash parts := by
  obtain ⟨p, ps, rfl⟩ := List.exists_cons_of_ne_nil h
  rfl

theorem joinSlash_splitSlash (s : List Char) : joinSlash (splitSlash s) = s := by
  induction s with
  | nil => rfl
  | cons c rest ih =>
    by_cases hc : c = '/'
    · subst hc
      rw [splitSlash_slash, joinSlash_cons (splitSlash_ne_nil rest), ih, List.nil_append]
    · obtain ⟨part, parts, hp⟩ := List.exists_cons_of_ne_nil (splitSlash_ne_nil rest)
      rw [splitSlash_cons hc hp]
      rw [hp] at ih
      cases parts with
      | nil => simpa [joinSlash] using ih
      | cons p ps =>
        rw [joinSlash_cons (List.cons_ne_nil _ _)] at ih ⊢
        rw [List.cons_append, ih]

theorem joinSlash_append {first second : List (List Char)} (h1 : first ≠ []) (h2 : second ≠ []) :
    joinSlash (first ++ second) = joinSlash first ++ '/' :: joinSlash second := by
  induction first with
  | nil => exact absurd rfl h1
  | cons part rest ih =>
    cases rest with
    | nil => exact joinSlash_cons h2
    | cons p ps =>
      rw [List.cons_append, joinSlash_cons (by simp), ih (List.cons_ne_nil _ _),
        joinSlash_cons (List.cons_ne_nil _ _), List.append_assoc, List.cons_append]

theorem splitSlash_joinSlash {parts : List (List Char)} (hne : parts ≠ [])
    (h : ∀ part ∈ parts, '/' ∉ part) : splitSlash (joinSlash parts) = parts := by
  induction parts with
  | nil => exact absurd rfl hne
  | cons part rest ih =>
    have hpart := splitSlash_of_no_slash (h part List.mem_cons_self)
    cases rest with
    | nil => exact hpart
    | cons p ps =>
      have hrest := ih (List.cons_ne_nil _ _) fun q hq => h q (List.mem_cons_of_mem _ hq)
      rw [joinSlash_cons (List.cons_ne_nil _ _), splitSlash_append_slash, hpart, hrest]
      rfl

theorem mem_joinSlash {parts : List (List Char)} {c : Char} (h : c ∈ joinSlash parts) :
    c = '/' ∨ ∃ part ∈ parts, c ∈ part := by
  induction parts with
  | nil => cases h
  | cons part rest ih =>
    cases rest with
    | nil => exact .inr ⟨part, List.mem_cons_self, h⟩
    | cons p ps =>
      rw [joinSlash_cons (List.cons_ne_nil _ _), List.mem_append, List.mem_cons] at h
      rcases h with h | h | h
      · exact .inr ⟨part, List.mem_cons_self, h⟩
      · exact .inl h
      · obtain hc | ⟨q, hq, hc⟩ := ih h
        · exact .inl hc
        · exact .inr ⟨q, List.mem_cons_of_mem _ hq, hc⟩

theorem splitSlash_names {names : List (List Char)} (hne : names ≠ [])
    (h : ∀ name ∈ names, IsName name) : splitSlash (joinSlash names) = names :=
  splitSlash_joinSlash hne fun name hn => (h name hn).no_slash

/-- The text of names is not empty and does not end with a separator. -/
theorem joinSlash_names {names : List (List Char)} (hne : names ≠ [])
    (h : ∀ name ∈ names, IsName name) :
    joinSlash names ≠ [] ∧ (joinSlash names).getLast? ≠ some '/' := by
  have hsplit := splitSlash_names hne h
  constructor
  · intro he
    rw [he] at hsplit
    exact (h [] (hsplit ▸ List.mem_singleton_self [])).ne_nil rfl
  · intro he
    obtain ⟨s, hs⟩ := List.getLast?_eq_some_iff.mp he
    rw [hs, splitSlash_append_slash] at hsplit
    have hmem : [] ∈ names := by
      rw [← hsplit]
      exact List.mem_append_right _ (List.mem_singleton_self [])
    exact (h [] hmem).ne_nil rfl

namespace FilePath

/-! ## Texts below a directory -/

/-- The text of a directory with a separator at its end, which relative paths are appended to. -/
def slashed (directory : FilePath) : List Char :=
  if directory.chars.isEmpty || directory.chars.getLast? == some '/' then directory.chars
  else directory.chars ++ ['/']

theorem isAbsolute_eq_false {s : List Char} (h : s.head? ≠ some '/') :
    isAbsolute ⟨s⟩ = false := by
  simpa [isAbsolute] using h

theorem head?_ne_of_relative {path : FilePath} (h : path.isAbsolute = false) :
    path.chars.head? ≠ some '/' := by
  simpa [isAbsolute] using h

theorem join_eq (directory : FilePath) {s : List Char} (h : s.head? ≠ some '/') :
    directory.join ⟨s⟩ = ⟨directory.slashed ++ s⟩ := by
  simp only [join, isAbsolute_eq_false h, slashed, Bool.false_eq_true, if_false]
  split
  · rfl
  · rw [List.append_assoc, List.singleton_append]

theorem join_of_relative (directory : FilePath) {path : FilePath} (h : path.isAbsolute = false) :
    directory.join path = ⟨directory.slashed ++ path.chars⟩ :=
  join_eq directory (head?_ne_of_relative h)

theorem head?_ne_slash {name : List Char} (h : IsName name) (rest : List Char) :
    (name ++ rest).head? ≠ some '/' := by
  obtain ⟨c, cs, rfl⟩ := List.exists_cons_of_ne_nil h.ne_nil
  intro hc
  have : c = '/' := by simpa using hc
  exact h.no_slash (this ▸ List.mem_cons_self)

theorem head?_joinSlash_ne_slash {names : List (List Char)} (h : ∀ name ∈ names, IsName name) :
    (joinSlash names).head? ≠ some '/' := by
  cases names with
  | nil => simp [joinSlash]
  | cons name rest =>
    have hn := h name List.mem_cons_self
    cases rest with
    | nil => simpa [joinSlash] using head?_ne_slash hn []
    | cons p ps => exact head?_ne_slash hn _

theorem slashed_append {name : List Char} (h : IsName name) (s : List Char) :
    slashed ⟨s ++ name⟩ = s ++ name ++ ['/'] := by
  have hne : s ++ name ≠ [] := by simp [h.ne_nil]
  have hlast : (s ++ name).getLast? ≠ some '/' := by
    rw [List.getLast?_append, List.getLast?_eq_some_getLast h.ne_nil, Option.some_or]
    intro hl
    have hl : name.getLast h.ne_nil = '/' := Option.some.inj hl
    exact h.no_slash (hl ▸ List.getLast_mem h.ne_nil)
  simp only [slashed, List.isEmpty_eq_false_iff.mpr hne, Bool.false_or, beq_iff_eq, hlast, if_false]

theorem below_cons (directory : FilePath) (name : List Char) (rest : List (List Char)) :
    directory.below (name :: rest) = (directory.join ⟨name⟩).below rest := rfl

theorem below_append (directory : FilePath) (first second : List (List Char)) :
    directory.below (first ++ second) = (directory.below first).below second := by
  simp [below]

theorem below_eq (directory : FilePath) {names : List (List Char)} (hne : names ≠ [])
    (h : ∀ name ∈ names, IsName name) :
    directory.below names = ⟨directory.slashed ++ joinSlash names⟩ := by
  induction names generalizing directory with
  | nil => exact absurd rfl hne
  | cons name rest ih =>
    have hn := h name List.mem_cons_self
    have hhead : name.head? ≠ some '/' := by simpa using head?_ne_slash hn []
    rw [below_cons, join_eq directory hhead]
    cases rest with
    | nil => rfl
    | cons p ps =>
      rw [ih _ (List.cons_ne_nil _ _) fun q hq => h q (List.mem_cons_of_mem _ hq),
        slashed_append hn, joinSlash_cons (List.cons_ne_nil _ _)]
      simp

theorem slashed_slashed (directory : FilePath) :
    slashed ⟨directory.slashed⟩ = directory.slashed := by
  unfold slashed
  split
  · rfl
  · rw [if_pos (by simp)]

/-- Below a directory further down there are the same paths. -/
theorem below_join (directory : FilePath) {first second : List (List Char)} (hne : second ≠ [])
    (h1 : ∀ name ∈ first, IsName name) (h2 : ∀ name ∈ second, IsName name) :
    (directory.join ⟨joinSlash first⟩).below second = directory.below (first ++ second) := by
  rw [join_eq directory (head?_joinSlash_ne_slash h1)]
  cases first with
  | nil =>
    rw [List.nil_append, below_eq _ hne h2, below_eq _ hne h2, joinSlash, List.append_nil,
      slashed_slashed]
  | cons name rest => rw [below_append, ← below_eq directory (List.cons_ne_nil _ _) h1]

/-! ## Components below a directory -/

theorem head?_splitSlash_append (s : List Char) (parts : List (List Char)) :
    (splitSlash s ++ parts).head? = (splitSlash s).head? := by
  obtain ⟨p, ps, hp⟩ := List.exists_cons_of_ne_nil (splitSlash_ne_nil s)
  rw [hp]
  rfl

theorem components_trailing {s : List Char} (hs : s ≠ []) :
    components ⟨s ++ ['/']⟩ = components ⟨s⟩ := by
  have habs : isAbsolute ⟨s ++ ['/']⟩ = isAbsolute ⟨s⟩ := by
    obtain ⟨c, cs, rfl⟩ := List.exists_cons_of_ne_nil hs
    rfl
  have hparts : splitSlash (s ++ ['/']) = splitSlash s ++ [[]] := splitSlash_append_slash s []
  simp only [components, habs, hparts, head?_splitSlash_append, List.filterMap_append,
    List.filterMap_cons, List.filterMap_nil, true_or, if_true, List.append_nil]

theorem components_slash (s : List Char) {name : List Char} (h : IsName name) :
    components ⟨s ++ '/' :: name⟩ = components ⟨s ++ ['/']⟩ ++ [.normal name] := by
  have habs : isAbsolute ⟨s ++ '/' :: name⟩ = isAbsolute ⟨s ++ ['/']⟩ := by
    cases s <;> rfl
  have hempty : splitSlash (s ++ ['/']) = splitSlash s ++ [[]] := splitSlash_append_slash s []
  have hname : splitSlash (s ++ '/' :: name) = splitSlash s ++ [name] := by
    rw [splitSlash_append_slash, splitSlash_of_no_slash h.no_slash]
  simp only [components, habs, hempty, hname, head?_splitSlash_append, List.filterMap_append,
    List.filterMap_cons, List.filterMap_nil, h.ne_nil, h.ne_dot, h.ne_dots, or_self, true_or,
    if_true, if_false, List.append_nil, List.append_assoc]

theorem components_join (directory : FilePath) {name : List Char} (h : IsName name) :
    (directory.join ⟨name⟩).components = directory.components ++ [.normal name] := by
  have hhead : name.head? ≠ some '/' := by simpa using head?_ne_slash h []
  obtain ⟨s⟩ := directory
  rw [join_eq _ hhead, slashed]
  cases hs : s.isEmpty with
  | true =>
    rw [List.isEmpty_iff] at hs
    subst hs
    simp only [Bool.true_or, if_true, List.nil_append, components, isAbsolute_eq_false hhead,
      splitSlash_of_no_slash h.no_slash, List.head?_cons, Option.some.injEq, h.ne_dot,
      List.filterMap_cons, List.filterMap_nil, h.ne_nil, h.ne_dots, or_self]
    rfl
  | false =>
    have hne : s ≠ [] := List.isEmpty_eq_false_iff.mp hs
    split
    · rename_i hl
      obtain ⟨t, rfl⟩ := List.getLast?_eq_some_iff.mp (beq_iff_eq.mp hl)
      rw [List.append_assoc, List.singleton_append, components_slash t h]
    · rw [List.append_assoc, List.singleton_append, components_slash s h, components_trailing hne]

theorem components_below (directory : FilePath) {names : List (List Char)}
    (h : ∀ name ∈ names, IsName name) :
    (directory.below names).components = directory.components ++ names.map .normal := by
  induction names generalizing directory with
  | nil => simp [below]
  | cons name rest ih =>
    rw [below_cons, ih _ fun q hq => h q (List.mem_cons_of_mem _ hq),
      components_join directory (h name List.mem_cons_self), List.append_assoc,
      List.singleton_append, List.map_cons]

theorem same_iff {a b : FilePath} : a.same b = true ↔ a.components = b.components :=
  decide_eq_true_iff

/-- Below one directory, different names make different paths. -/
theorem same_below (directory : FilePath) {first second : List (List Char)}
    (h1 : ∀ name ∈ first, IsName name) (h2 : ∀ name ∈ second, IsName name) :
    (directory.below first).same (directory.below second) = true ↔ first = second := by
  rw [same, decide_eq_true_eq, components_below directory h1, components_below directory h2,
    List.append_cancel_left_eq]
  exact List.map_inj_right fun _ _ => Component.normal.inj

/-! ## The order of paths -/

namespace Component

theorem nameLe_total (a : List Char) : ∀ b, nameLe a b = true ∨ nameLe b a = true := by
  induction a with
  | nil => intro b; exact .inl rfl
  | cons c rest ih =>
    intro b
    cases b with
    | nil => exact .inr rfl
    | cons d more =>
      simp only [nameLe, Bool.or_eq_true, decide_eq_true_eq, Bool.and_eq_true]
      rcases Nat.lt_trichotomy c.toNat d.toNat with h | h | h
      · exact .inl (.inl h)
      · have hcd : c = d := Char.toNat_inj.mp h
        rcases ih more with hm | hm
        · exact .inl (.inr ⟨hcd, hm⟩)
        · exact .inr (.inr ⟨hcd.symm, hm⟩)
      · exact .inr (.inl h)

theorem nameLe_trans {a b c : List Char} (h1 : nameLe a b = true) (h2 : nameLe b c = true) :
    nameLe a c = true := by
  induction a generalizing b c with
  | nil => rfl
  | cons x xs ih =>
    cases b with
    | nil => cases h1
    | cons y ys =>
      cases c with
      | nil => cases h2
      | cons z zs =>
        simp only [nameLe, Bool.or_eq_true, decide_eq_true_eq, Bool.and_eq_true] at h1 h2 ⊢
        rcases h1 with h1 | ⟨rfl, h1⟩
        · rcases h2 with h2 | ⟨rfl, h2⟩
          · exact .inl (Nat.lt_trans h1 h2)
          · exact .inl h1
        · rcases h2 with h2 | ⟨rfl, h2⟩
          · exact .inl h2
          · exact .inr ⟨rfl, ih h1 h2⟩

theorem nameLe_antisymm {a b : List Char} (h1 : nameLe a b = true) (h2 : nameLe b a = true) :
    a = b := by
  induction a generalizing b with
  | nil =>
    cases b with
    | nil => rfl
    | cons y ys => cases h2
  | cons x xs ih =>
    cases b with
    | nil => cases h1
    | cons y ys =>
      simp only [nameLe, Bool.or_eq_true, decide_eq_true_eq, Bool.and_eq_true] at h1 h2
      rcases h1 with h1 | ⟨rfl, h1⟩
      · rcases h2 with h2 | ⟨rfl, _⟩
        · omega
        · omega
      · rcases h2 with h2 | ⟨_, h2⟩
        · omega
        · rw [ih h1 h2]

theorem le_iff (a b : Component) :
    a.le b = true ↔ a.rank < b.rank ∨ a.rank = b.rank ∧ nameLe a.name b.name = true := by
  simp [le]

theorem le_total (a b : Component) : a.le b = true ∨ b.le a = true := by
  rw [le_iff, le_iff]
  rcases Nat.lt_trichotomy a.rank b.rank with h | h | h
  · exact .inl (.inl h)
  · rcases nameLe_total a.name b.name with hn | hn
    · exact .inl (.inr ⟨h, hn⟩)
    · exact .inr (.inr ⟨h.symm, hn⟩)
  · exact .inr (.inl h)

theorem le_trans {a b c : Component} (h1 : a.le b = true) (h2 : b.le c = true) :
    a.le c = true := by
  rw [le_iff] at h1 h2 ⊢
  rcases h1 with h1 | ⟨h1, hn1⟩
  · rcases h2 with h2 | ⟨h2, _⟩
    · exact .inl (by omega)
    · exact .inl (by omega)
  · rcases h2 with h2 | ⟨h2, hn2⟩
    · exact .inl (by omega)
    · exact .inr ⟨by omega, nameLe_trans hn1 hn2⟩

theorem le_antisymm {a b : Component} (h1 : a.le b = true) (h2 : b.le a = true) : a = b := by
  rw [le_iff] at h1 h2
  have hrank : a.rank = b.rank := by omega
  have hname : a.name = b.name := by
    rcases h1 with h1 | ⟨_, hn1⟩
    · omega
    · rcases h2 with h2 | ⟨_, hn2⟩
      · omega
      · exact nameLe_antisymm hn1 hn2
  cases a <;> cases b <;> simp_all [rank, name]

end Component

theorem componentsLe_total (a : List Component) :
    ∀ b, componentsLe a b = true ∨ componentsLe b a = true := by
  induction a with
  | nil => intro b; exact .inl rfl
  | cons x xs ih =>
    intro b
    cases b with
    | nil => exact .inr rfl
    | cons y ys =>
      by_cases h : x = y
      · subst h
        simpa [componentsLe] using ih ys
      · have h' : y ≠ x := fun hyx => h hyx.symm
        simpa [componentsLe, h, h'] using Component.le_total x y

theorem componentsLe_trans {a b c : List Component} (h1 : componentsLe a b = true)
    (h2 : componentsLe b c = true) : componentsLe a c = true := by
  induction a generalizing b c with
  | nil => rfl
  | cons x xs ih =>
    cases b with
    | nil => cases h1
    | cons y ys =>
      cases c with
      | nil => cases h2
      | cons z zs =>
        by_cases hxy : x = y
        · subst hxy
          by_cases hxz : x = z
          · subst hxz
            simp only [componentsLe, if_true] at h1 h2 ⊢
            exact ih h1 h2
          · simpa [componentsLe, hxz] using h2
        · simp only [componentsLe, if_neg hxy] at h1
          by_cases hyz : y = z
          · subst hyz
            simpa [componentsLe, hxy] using h1
          · simp only [componentsLe, if_neg hyz] at h2
            have hxz : x ≠ z := fun h => hxy (Component.le_antisymm h1 (h ▸ h2))
            simpa [componentsLe, hxz] using Component.le_trans h1 h2

theorem componentsLe_antisymm {a b : List Component} (h1 : componentsLe a b = true)
    (h2 : componentsLe b a = true) : a = b := by
  induction a generalizing b with
  | nil =>
    cases b with
    | nil => rfl
    | cons y ys => cases h2
  | cons x xs ih =>
    cases b with
    | nil => cases h1
    | cons y ys =>
      by_cases h : x = y
      · subst h
        simp only [componentsLe, if_true] at h1 h2
        rw [ih h1 h2]
      · have h' : y ≠ x := fun hyx => h hyx.symm
        simp only [componentsLe, if_neg h, if_neg h'] at h1 h2
        exact absurd (Component.le_antisymm h1 h2) h

theorem le_total (a b : FilePath) : (a.le b || b.le a) = true := by
  rw [Bool.or_eq_true]
  exact componentsLe_total a.components b.components

theorem le_trans (a b c : FilePath) (h1 : a.le b = true) (h2 : b.le c = true) :
    a.le c = true :=
  componentsLe_trans h1 h2

theorem mem_sort {path : FilePath} {paths : List FilePath} :
    path ∈ sort paths ↔ path ∈ paths :=
  List.mem_mergeSort

theorem sort_le (paths : List FilePath) : (sort paths).Pairwise fun a b => a.le b = true :=
  List.pairwise_mergeSort le_trans le_total paths

/-- Paths that are all different are sorted into their strict order. -/
theorem sort_pairwise {paths : List FilePath}
    (h : paths.Pairwise fun a b => a.same b = false) :
    (sort paths).Pairwise fun a b => a.le b = true ∧ a.same b = false := by
  have hsame : (sort paths).Pairwise fun a b => a.same b = false := by
    refine ((List.mergeSort_perm paths le).pairwise_iff ?_).mpr h
    intro a b hab
    simp only [same, decide_eq_false_iff_not] at hab ⊢
    exact fun hba => hab hba.symm
  exact (sort_le paths).and hsame

/-- Below one directory, the order in which paths are found does not matter to the sorted list. -/
theorem sort_eq_of_perm (directory : FilePath) {first second : List FilePath}
    (h : first.Perm second)
    (hbelow : ∀ path ∈ first, ∃ names, (∀ name ∈ names, IsName name) ∧
      path = directory.below names) : sort first = sort second := by
  have hperm : (sort first).Perm (sort second) :=
    (List.mergeSort_perm first le).trans (h.trans (List.mergeSort_perm second le).symm)
  refine hperm.eq_of_pairwise ?_ (sort_le first) (sort_le second)
  intro a b ha hb hab hba
  obtain ⟨names, hnames, rfl⟩ := hbelow a (mem_sort.mp ha)
  obtain ⟨others, hothers, rfl⟩ := hbelow b (h.mem_iff.mpr (mem_sort.mp hb))
  have hsame : (directory.below names).same (directory.below others) = true :=
    decide_eq_true (componentsLe_antisymm hab hba)
  rw [(same_below directory hnames hothers).mp hsame]

end FilePath
end ThemeRules
