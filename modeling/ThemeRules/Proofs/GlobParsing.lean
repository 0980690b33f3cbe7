import ThemeRules.Glob.Pattern

/-!
# ThemeRules.Proofs.GlobParsing

Reading a pattern on its own and behind a literal directory. The two readings go through the same modes
and differ only in what two stars at the start mean: on their own they are the directories that a path
may begin with, behind a directory they stand for a separator, perhaps with directories around it, or
for everything below it. `Sync` relates the states of the two readings; every character keeps it
(`step_sync`), and at the end the tokens are related by `Anchored` (`parse_behind`).
-/

namespace ThemeRules
namespace Glob

/-- Two outcomes: the same error, or related results. -/
inductive Agree {ε α β : Type} (R : α → β → Prop) : Except ε α → Except ε β → Prop where
  | error (fault : ε) : Agree R (.error fault) (.error fault)
  | ok {a : α} {b : β} : R a b → Agree R (.ok a) (.ok b)

theorem Agree.outcomes {ε α β : Type} {R : α → β → Prop} {x : Except ε α} {y : Except ε β}
    (h : Agree R x y) :
    (∃ fault, x = .error fault ∧ y = .error fault) ∨ ∃ a b, x = .ok a ∧ y = .ok b ∧ R a b := by
  cases h with
  | error fault => exact .inl ⟨fault, rfl, rfl⟩
  | ok hr => exact .inr ⟨_, _, rfl, rfl, hr⟩

/-- The tokens of a pattern on its own and behind a directory. -/
inductive Anchored (dir : List Token) : List Token → List Token → Prop where
  | same {tokens : List Token} : .leading ∉ tokens →
      Anchored dir tokens (dir ++ .literal '/' :: tokens)
  | between {tokens : List Token} : tokens ≠ [] →
      Anchored dir (.leading :: tokens) (dir ++ .between :: tokens)
  | trailing : Anchored dir [.leading] (dir ++ [.trailing])

/-! ## Related drafts -/

section

variable (dir : List Token)

/-- Tokens outside of groups, in reverse; the directory has been read to its separator. -/
inductive Paired : List Token → List Token → Prop where
  | same {tokens : List Token} : .leading ∉ tokens →
      Paired tokens (tokens ++ .literal '/' :: dir)
  | between (tokens : List Token) : Paired (tokens ++ [.leading]) (tokens ++ .between :: dir)

/-- Drafts that differ only outside of groups. -/
inductive Related : Draft → Draft → Prop where
  | top {t w : List Token} : Paired dir t w → Related ⟨t, []⟩ ⟨w, []⟩
  | group {t w : List Token} (tokens : List Token) (groups : List Group)
      (branches : List (List Token)) : Paired dir t w →
      Related ⟨tokens, groups ++ [⟨branches, t⟩]⟩ ⟨tokens, groups ++ [⟨branches, w⟩]⟩

/-- Some token has been read, or a group is open. -/
def Begun (d : Draft) : Prop := d.groups = [] → d.tokens ≠ []

/-- What the mode says of a draft: behind anything but a separator there is more than the directories
at the start. -/
def Ready (mode : Mode) (d : Draft) : Prop :=
  match mode with
  | .plain before => Begun d ∧ (before ≠ some '/' → d.groups = [] → d.tokens ≠ [.leading])
  | .star _ | .twoStars _ => Begun d
  | .escape | .classStart | .inClass _ => True

/-- The states of the two readings. As long as only stars have been read, the separator before them is
known to the reading behind a directory alone. -/
inductive Sync : Mode × Draft → Mode × Draft → Prop where
  | plain : Sync (.plain none, ⟨[], []⟩) (.plain (some '/'), ⟨.literal '/' :: dir, []⟩)
  | star : Sync (.star none, ⟨[], []⟩) (.star (some '/'), ⟨.literal '/' :: dir, []⟩)
  | twoStars : Sync (.twoStars none, ⟨[], []⟩) (.twoStars (some '/'), ⟨.literal '/' :: dir, []⟩)
  | running {mode : Mode} {d w : Draft} : Related dir d w → Ready mode d →
      Sync (mode, d) (mode, w)

end

section

variable {dir : List Token}

theorem begun_push (d : Draft) (token : Token) : Begun (d.push token) :=
  fun _ => List.cons_ne_nil _ _

theorem ready_push {token : Token} (ht : token ≠ .leading) (d : Draft) (before : Option Char) :
    Ready (.plain before) (d.push token) :=
  ⟨begun_push d token, fun _ _ h => ht (List.cons.inj h).1⟩

theorem Paired.push {t w : List Token} (h : Paired dir t w) {token : Token}
    (ht : token ≠ .leading) : Paired dir (token :: t) (token :: w) := by
  cases h with
  | same hl =>
    have hl' : Token.leading ∉ token :: t := by
      rw [List.mem_cons, not_or]
      exact ⟨fun h => ht h.symm, hl⟩
    exact .same hl'
  | between tokens => exact .between (token :: tokens)

theorem Paired.ne_nil {t w : List Token} (h : Paired dir t w) : w ≠ [] := by
  cases h <;> simp

theorem Related.push {d w : Draft} (h : Related dir d w) {token : Token} (ht : token ≠ .leading) :
    Related dir (d.push token) (w.push token) := by
  cases h with
  | top hp => exact .top (hp.push ht)
  | group tokens groups branches hp => exact .group (token :: tokens) groups branches hp

theorem Related.openGroup {d w : Draft} (h : Related dir d w) :
    Related dir d.openGroup w.openGroup := by
  cases h with
  | top hp => exact .group [] [] [] hp
  | group tokens groups branches hp => exact .group [] (⟨[], tokens⟩ :: groups) branches hp

theorem Related.comma {d w : Draft} (h : Related dir d w) :
    Related dir d.comma w.comma ∧ Ready (.plain (some ',')) d.comma := by
  cases h with
  | top hp =>
    exact ⟨.top (hp.push fun h => by cases h), ready_push (fun h => by cases h) _ _⟩
  | group tokens groups branches hp =>
    cases groups with
    | nil => exact ⟨.group [] [] _ hp, fun h => (by cases h), fun _ h => by cases h⟩
    | cons g gs =>
      exact ⟨.group [] ({ g with branches := tokens.reverse :: g.branches } :: gs) branches hp,
        fun h => (by cases h), fun _ h => by cases h⟩

theorem Related.closeGroup {d w : Draft} (h : Related dir d w) :
    Agree (fun d w => Related dir d w ∧ Ready (.plain (some '}')) d) d.closeGroup w.closeGroup := by
  cases h with
  | top hp => exact .error Fault.unopenedGroup
  | group tokens groups branches hp =>
    cases groups with
    | nil =>
      exact .ok ⟨.top (hp.push fun h => by cases h),
        fun _ => List.cons_ne_nil _ _, fun _ _ h => by cases h⟩
    | cons g gs =>
      exact .ok ⟨.group (_ :: g.before) gs branches hp,
        fun _ => List.cons_ne_nil _ _, fun _ _ h => by cases h⟩

/-! ## Two stars -/

/-- What two stars make of the token before them. -/
def widen (last token : Token) : Token :=
  match last with
  | .leading => .leading
  | .trailing => .trailing
  | _ => token

theorem widen_ne_leading {last token : Token} (hl : last ≠ .leading) (ht : token ≠ .leading) :
    widen last token ≠ .leading := by
  cases last <;> simp_all [widen]

theorem replaceLast_cons (last token : Token) (tokens : List Token) (groups : List Group) :
    (⟨last :: tokens, groups⟩ : Draft).replaceLast token = ⟨widen last token :: tokens, groups⟩ := by
  cases last <;> rfl

theorem Paired.replaceLast {t w : List Token} (h : Paired dir t w) (hne : t ≠ []) :
    Related dir ((⟨t, []⟩ : Draft).replaceLast .between) ((⟨w, []⟩ : Draft).replaceLast .between) ∧
      Begun ((⟨t, []⟩ : Draft).replaceLast .between) := by
  cases h with
  | same hl =>
    obtain ⟨last, tokens, rfl⟩ := List.exists_cons_of_ne_nil hne
    rw [List.mem_cons, not_or] at hl
    rw [List.cons_append, replaceLast_cons, replaceLast_cons]
    have hlast : widen last .between ≠ .leading :=
      widen_ne_leading (fun h => hl.1 h.symm) (by simp)
    exact ⟨.top (Paired.push (.same hl.2) hlast), fun _ => List.cons_ne_nil _ _⟩
  | between tokens =>
    cases tokens with
    | nil => exact ⟨.top (.between []), fun _ => List.cons_ne_nil _ _⟩
    | cons last tokens =>
      rw [List.cons_append, List.cons_append, replaceLast_cons, replaceLast_cons]
      exact ⟨.top (.between (_ :: tokens)), fun _ => List.cons_ne_nil _ _⟩

theorem Related.twoRuns {d w : Draft} (h : Related dir d w) :
    Related dir d.twoRuns w.twoRuns ∧ Begun d.twoRuns :=
  ⟨(h.push fun h => by cases h).push fun h => (by cases h), begun_push _ _⟩

/-- Inside of a group two stars do not look at what is around it. -/
theorem twoStars_group (tokens : List Token) (before next : Option Char) :
    ∃ tokens' taken, (taken = true → next = some '/') ∧
      ∀ g gs, (⟨tokens, g :: gs⟩ : Draft).twoStars before next = (⟨tokens', g :: gs⟩, taken) := by
  cases tokens with
  | nil =>
    cases next with
    | none => exact ⟨[.leading], false, fun h => (by cases h), fun g gs => rfl⟩
    | some c =>
      by_cases hc : c = '/'
      · subst hc
        exact ⟨[.leading], true, fun _ => rfl, fun g gs => rfl⟩
      · refine ⟨[.anyRun, .anyRun], false, fun h => (by cases h), fun g gs => ?_⟩
        simp [Draft.twoStars, Draft.twoRuns, Draft.push]
  | cons last tokens =>
    by_cases hb : (before != some '/' && (before != some ',' && before != some '{')) = true
    · refine ⟨.anyRun :: .anyRun :: last :: tokens, false, fun h => (by cases h), fun g gs => ?_⟩
      simp only [Draft.twoStars, List.isEmpty_cons, Bool.false_or, hb, if_true, Bool.false_eq_true,
        if_false]
      rfl
    · cases next with
      | none =>
        refine ⟨widen last .trailing :: tokens, false, fun h => (by cases h), fun g gs => ?_⟩
        simp only [Draft.twoStars, List.isEmpty_cons, Bool.false_or, hb, Bool.false_eq_true,
          if_false, replaceLast_cons]
      | some c =>
        by_cases hc : c = '/'
        · subst hc
          refine ⟨widen last .between :: tokens, true, fun _ => rfl, fun g gs => ?_⟩
          simp only [Draft.twoStars, List.isEmpty_cons, Bool.false_or, hb, Bool.false_eq_true,
            if_false, replaceLast_cons]
        · by_cases he : (c == ',' || c == '}') = true
          · refine ⟨widen last .trailing :: tokens, false, fun h => (by cases h), fun g gs => ?_⟩
            simp only [Draft.twoStars, List.isEmpty_cons, Bool.false_or, hb, Bool.false_eq_true,
              if_false, replaceLast_cons]
            simp [he]
          · refine ⟨.anyRun :: .anyRun :: last :: tokens, false, fun h => (by cases h),
              fun g gs => ?_⟩
            simp only [Draft.twoStars, List.isEmpty_cons, Bool.false_or, hb, Bool.false_eq_true,
              if_false]
            simp [he, Draft.twoRuns, Draft.push]

/-- Outside of groups, behind some token, a separator before two stars becomes part of them. -/
theorem twoStars_slash {tokens : List Token} (hne : tokens ≠ []) :
    (⟨tokens, []⟩ : Draft).twoStars (some '/') (some '/') =
      ((⟨tokens, []⟩ : Draft).replaceLast .between, true) := by
  simp [Draft.twoStars, List.isEmpty_eq_false_iff.mpr hne]

theorem twoStars_none {tokens : List Token} (hne : tokens ≠ []) :
    (⟨tokens, []⟩ : Draft).twoStars (some '/') none =
      ((⟨tokens, []⟩ : Draft).replaceLast .trailing, false) := by
  simp [Draft.twoStars, List.isEmpty_eq_false_iff.mpr hne]

/-- Without a separator before or behind them, two stars are two runs. -/
theorem twoStars_runs {tokens : List Token} (hne : tokens ≠ []) {before next : Option Char}
    (h : before ≠ some '/' ∨ ∃ c, next = some c ∧ c ≠ '/') :
    (⟨tokens, []⟩ : Draft).twoStars before next = ((⟨tokens, []⟩ : Draft).twoRuns, false) := by
  by_cases hb : before = some '/'
  · obtain ⟨c, rfl, hc⟩ := h.resolve_left (not_not_intro hb)
    simp [Draft.twoStars, List.isEmpty_eq_false_iff.mpr hne, hb]
  · simp [Draft.twoStars, List.isEmpty_eq_false_iff.mpr hne, hb]

theorem Related.twoStars {d w : Draft} (h : Related dir d w) (hb : Begun d) (before : Option Char)
    (c : Char) :
    ∃ d' w' taken, d.twoStars before (some c) = (d', taken) ∧
      w.twoStars before (some c) = (w', taken) ∧ Related dir d' w' ∧ Begun d' ∧
      (taken = true → c = '/') := by
  cases h with
  | @top t w hp =>
    have ht : t ≠ [] := hb rfl
    by_cases hc : before = some '/' ∧ c = '/'
    · obtain ⟨rfl, rfl⟩ := hc
      obtain ⟨hr, hb⟩ := hp.replaceLast ht
      exact ⟨_, _, true, twoStars_slash ht, twoStars_slash hp.ne_nil, hr, hb, fun _ => rfl⟩
    · have hruns : before ≠ some '/' ∨ ∃ d, some c = some d ∧ d ≠ '/' :=
        (Decidable.not_and_iff_or_not.mp hc).imp_right fun h => ⟨c, rfl, h⟩
      obtain ⟨hr, hb⟩ := (Related.top hp).twoRuns
      exact ⟨_, _, false, twoStars_runs ht hruns, twoStars_runs hp.ne_nil hruns, hr, hb,
        fun h => by cases h⟩
  | group tokens groups branches hp =>
    obtain ⟨tokens', taken, hc, hg⟩ := twoStars_group tokens before (some c)
    refine ⟨⟨tokens', groups ++ [_]⟩, ⟨tokens', groups ++ [_]⟩, taken, ?_, ?_,
      .group tokens' groups branches hp, fun h => ?_, fun h => Option.some.inj (hc h)⟩
    · cases groups with
      | nil => exact hg _ _
      | cons g gs => exact hg g _
    · cases groups with
      | nil => exact hg _ _
      | cons g gs => exact hg g _
    · simp at h

/-! ## Steps -/

theorem plainStep_sync {d w : Draft} (h : Related dir d w) (before : Option Char) {c : Char}
    (hs : c = '*' → Begun d) :
    Agree (Sync dir) (plainStep d before c) (plainStep w before c) := by
  unfold plainStep
  split
  · exact .ok (.running (h.push fun h => by cases h) (ready_push (fun h => by cases h) _ _))
  · exact .ok (.running h (hs rfl))
  · exact .ok (.running h trivial)
  · exact .ok (.running h.openGroup ⟨fun h => (by cases h), fun _ h => by cases h⟩)
  · rcases h.closeGroup.outcomes with ⟨fault, hd, hw⟩ | ⟨d', w', hd, hw, hr, hready⟩
    · rw [hd, hw]
      exact .error fault
    · rw [hd, hw]
      exact .ok (.running hr hready)
  · exact .ok (.running h.comma.1 h.comma.2)
  · exact .ok (.running h trivial)
  · exact .ok (.running (h.push fun h => by cases h) (ready_push (fun h => by cases h) _ _))

theorem classStep_sync {d w : Draft} (h : Related dir d w) (inside : ClassDraft) (c : Char) :
    Agree (Sync dir) (classStep d inside c) (classStep w inside c) := by
  unfold classStep
  split
  · exact .ok (.running (h.push fun h => by cases h) (ready_push (fun h => by cases h) _ _))
  · cases inside.add c with
    | error fault => exact .error fault
    | ok inside => exact .ok (.running h trivial)

/-- Only a star asks for the character before it. -/
theorem plainStep_before {c : Char} (hc : c ≠ '*') (d : Draft) (before before' : Option Char) :
    plainStep d before c = plainStep d before' c := by
  unfold plainStep
  split
  · rfl
  · exact absurd rfl hc
  all_goals rfl

theorem running_sync {mode : Mode} {d w : Draft} (h : Related dir d w) (hready : Ready mode d)
    (c : Char) : Agree (Sync dir) (step d mode c) (step w mode c) := by
  cases mode with
  | plain before => exact plainStep_sync h before fun _ => hready.1
  | star before =>
    by_cases hc : c = '*'
    · subst hc
      exact .ok (.running h hready)
    · simp only [step, beq_iff_eq, if_neg hc]
      exact plainStep_sync (h.push fun h => by cases h) _ fun _ => begun_push _ _
  | twoStars before =>
    obtain ⟨d', w', taken, hd, hw, hr, hb, htaken⟩ := h.twoStars hready before c
    simp only [step, hd, hw]
    cases taken with
    | true =>
      have hc := htaken rfl
      subst hc
      exact .ok (.running hr ⟨hb, fun h => absurd rfl h⟩)
    | false => exact plainStep_sync hr _ fun _ => hb
  | escape =>
    exact .ok (.running (h.push fun h => by cases h) (ready_push (fun h => by cases h) _ _))
  | classStart =>
    simp only [step]
    split
    · exact .ok (.running h trivial)
    · exact classStep_sync h _ c
  | inClass inside => exact classStep_sync h inside c

theorem related_start (dir : List Token) : Related dir ⟨[], []⟩ ⟨.literal '/' :: dir, []⟩ :=
  .top (.same (by simp))

/-- The first character behind stars tells whether the separator before them belongs to them. -/
theorem start_sync (dir : List Token) (c : Char) :
    Agree (Sync dir) (step ⟨[], []⟩ (.twoStars none) c)
      (step ⟨.literal '/' :: dir, []⟩ (.twoStars (some '/')) c) := by
  by_cases hc : c = '/'
  · subst hc
    exact .ok (.running (.top (.between [])) ⟨fun _ => List.cons_ne_nil _ _, fun h => absurd rfl h⟩)
  · have hd : (⟨[], []⟩ : Draft).twoStars none (some c) = ((⟨[], []⟩ : Draft).twoRuns, false) := by
      simp [Draft.twoStars]
    have hw : (⟨.literal '/' :: dir, []⟩ : Draft).twoStars (some '/') (some c) =
        ((⟨.literal '/' :: dir, []⟩ : Draft).twoRuns, false) :=
      twoStars_runs (List.cons_ne_nil _ _) (.inr ⟨c, rfl, hc⟩)
    obtain ⟨hr, hb⟩ := (related_start dir).twoRuns
    simp only [step, hd, hw]
    exact plainStep_sync hr _ fun _ => hb

theorem step_sync {mode mode' : Mode} {d w : Draft} (h : Sync dir (mode, d) (mode', w)) (c : Char) :
    Agree (Sync dir) (step d mode c) (step w mode' c) := by
  cases h with
  | plain =>
    by_cases hc : c = '*'
    · subst hc
      exact .ok .star
    · rw [step, step, plainStep_before hc _ none (some '/')]
      exact plainStep_sync (related_start dir) _ fun h => absurd h hc
  | star =>
    by_cases hc : c = '*'
    · subst hc
      exact .ok .twoStars
    · simp only [step, beq_iff_eq, if_neg hc]
      exact plainStep_sync ((related_start dir).push fun h => by cases h) _ fun _ => begun_push _ _
  | twoStars => exact start_sync dir c
  | running hr hready => exact running_sync hr hready c

theorem parseFrom_sync (text : List Char) :
    ∀ {mode mode' : Mode} {d w : Draft}, Sync dir (mode, d) (mode', w) →
      Agree (Sync dir) (parseFrom d mode text) (parseFrom w mode' text) := by
  induction text with
  | nil => intro mode mode' d w h; exact .ok h
  | cons c rest ih =>
    intro mode mode' d w h
    rw [parseFrom, parseFrom]
    rcases (step_sync h c).outcomes with ⟨fault, hd, hw⟩ | ⟨state, state', hd, hw, hs⟩
    · rw [hd, hw]
      exact .error fault
    · rw [hd, hw]
      exact ih hs

/-! ## The end of the text -/

theorem Paired.anchored {t w : List Token} (h : Paired dir t w) (hne : t ≠ [.leading]) :
    Anchored dir.reverse t.reverse w.reverse := by
  cases h with
  | @same tokens hl =>
    rw [List.reverse_append, List.reverse_cons, List.append_assoc, List.singleton_append]
    exact .same fun h => hl (List.mem_reverse.mp h)
  | between tokens =>
    simp only [List.reverse_append, List.reverse_cons, List.reverse_nil, List.nil_append,
      List.append_assoc, List.singleton_append]
    refine .between fun h => hne ?_
    rw [List.reverse_eq_nil_iff.mp h]
    rfl

theorem anchored_trailing (dir : List Token) :
    Anchored dir.reverse [.leading] (Token.trailing :: dir).reverse := by
  rw [List.reverse_cons]
  exact .trailing

theorem Related.closed {d w : Draft} (h : Related dir d w)
    (hne : d.groups = [] → d.tokens ≠ [.leading]) :
    Agree (Anchored dir.reverse) d.closed w.closed := by
  cases h with
  | top hp => exact .ok (hp.anchored (hne rfl))
  | @group t w tokens groups branches hp =>
    have hopen : (groups ++ [(⟨branches, t⟩ : Group)]).isEmpty = false := by simp
    have hopen' : (groups ++ [(⟨branches, w⟩ : Group)]).isEmpty = false := by simp
    rw [Draft.closed, Draft.closed, hopen, hopen']
    exact .error Fault.unclosedGroup

theorem Related.twoStars_end {d w : Draft} (h : Related dir d w) (hb : Begun d)
    (before : Option Char) :
    Agree (Anchored dir.reverse) (d.twoStars before none).1.closed
      (w.twoStars before none).1.closed := by
  cases h with
  | @top t w hp =>
    have ht : t ≠ [] := hb rfl
    by_cases hs : before = some '/'
    · rw [hs, twoStars_none ht, twoStars_none hp.ne_nil]
      cases hp with
      | same hl =>
        obtain ⟨last, tokens, rfl⟩ := List.exists_cons_of_ne_nil ht
        rw [List.mem_cons, not_or] at hl
        have hlast : widen last .trailing ≠ .leading :=
          widen_ne_leading (fun h => hl.1 h.symm) (by simp)
        rw [List.cons_append, replaceLast_cons, replaceLast_cons]
        refine .ok ((Paired.push (.same hl.2) hlast).anchored fun h => hlast ?_)
        exact (List.cons.inj h).1
      | between tokens =>
        cases tokens with
        | nil => exact .ok (anchored_trailing dir)
        | cons last tokens =>
          rw [List.cons_append, List.cons_append, replaceLast_cons, replaceLast_cons]
          exact .ok ((Paired.between (_ :: tokens)).anchored (by simp))
    · rw [twoStars_runs ht (.inl hs), twoStars_runs hp.ne_nil (.inl hs)]
      exact (Related.top hp).twoRuns.1.closed fun _ h => by cases h
  | @group t w tokens groups branches hp =>
    obtain ⟨tokens', taken, -, hg⟩ := twoStars_group tokens before none
    have hopen : ∀ x : List Token, ((⟨tokens, groups ++ [⟨branches, x⟩]⟩ : Draft).twoStars before
        none).1 = ⟨tokens', groups ++ [⟨branches, x⟩]⟩ := by
      intro x
      cases groups with
      | nil => exact congrArg Prod.fst (hg _ _)
      | cons g gs => exact congrArg Prod.fst (hg g _)
    rw [hopen, hopen]
    exact (Related.group tokens' groups branches hp).closed fun h => by simp at h

theorem finish_sync {mode mode' : Mode} {d w : Draft} (h : Sync dir (mode, d) (mode', w))
    (hlast : ∀ before, mode = .plain before → before ≠ none ∧ before ≠ some '/') :
    Agree (Anchored dir.reverse) (finish mode d) (finish mode' w) := by
  cases h with
  | plain => exact absurd rfl (hlast none rfl).1
  | star => exact ((related_start dir).push fun h => by cases h).closed fun _ h => by cases h
  | twoStars => exact .ok (anchored_trailing dir)
  | running hr hready =>
    cases mode with
    | plain before => exact hr.closed (hready.2 (hlast before rfl).2)
    | star before => exact (hr.push fun h => by cases h).closed fun _ h => by cases h
    | twoStars before => exact hr.twoStars_end hready before
    | escape => exact .error Fault.danglingEscape
    | classStart => exact .error Fault.unclosedClass
    | inClass inside => exact .error Fault.unclosedClass

end

/-! ## Whole patterns -/

theorem parseFrom_append (first second : List Char) :
    ∀ (d : Draft) (mode : Mode), parseFrom d mode (first ++ second) =
      match parseFrom d mode first with
      | .error fault => .error fault
      | .ok (mode, d) => parseFrom d mode second := by
  induction first with
  | nil => intro d mode; rfl
  | cons c rest ih =>
    intro d mode
    rw [List.cons_append, parseFrom, parseFrom]
    cases step d mode c with
    | error fault => rfl
    | ok state => exact ih state.2 state.1

theorem plainStep_last {d d' : Draft} {b before : Option Char} {c : Char}
    (h : plainStep d b c = .ok (.plain before, d')) : before = some c := by
  unfold plainStep at h
  split at h
  · cases h; rfl
  · cases h
  · cases h
  · cases h; rfl
  · split at h
    · cases h
    · cases h; rfl
  · cases h; rfl
  · cases h
  · cases h; rfl

theorem classStep_last {d d' : Draft} {inside : ClassDraft} {before : Option Char} {c : Char}
    (h : classStep d inside c = .ok (.plain before, d')) : before = some c := by
  unfold classStep at h
  split at h
  · cases h
    rfl
  · split at h
    · cases h
    · cases h

/-- The reader knows the last character, unless something is still open there. -/
theorem step_last {d d' : Draft} {mode : Mode} {c : Char} {before : Option Char}
    (h : step d mode c = .ok (.plain before, d')) : before = some c := by
  cases mode with
  | plain b => exact plainStep_last h
  | star b =>
    simp only [step] at h
    split at h
    · cases h
    · exact plainStep_last h
  | twoStars b =>
    simp only [step] at h
    split at h
    · cases h
      rfl
    · exact plainStep_last h
  | escape => cases h; rfl
  | classStart =>
    simp only [step] at h
    split at h
    · cases h
    · exact classStep_last h
  | inClass inside => exact classStep_last h

theorem parseFrom_last {d d' : Draft} {mode : Mode} {text : List Char} {before : Option Char}
    (hne : text ≠ []) (h : parseFrom d mode text = .ok (.plain before, d')) :
    before = text.getLast? := by
  obtain ⟨init, c, rfl⟩ := (List.eq_nil_or_concat text).resolve_left hne
  rw [List.concat_eq_append] at h ⊢
  rw [parseFrom_append] at h
  rw [List.getLast?_append, List.getLast?_singleton]
  split at h
  · cases h
  · rename_i mode' e _
    simp only [parseFrom] at h
    split at h
    · cases h
    · rename_i hs
      cases h
      exact step_last hs

/-- A character that stands for itself outside of groups. -/
structure Literal (c : Char) : Prop where
  ne_byte : c ≠ '?'
  ne_star : c ≠ '*'
  ne_class : c ≠ '['
  ne_open : c ≠ '{'
  ne_close : c ≠ '}'
  ne_escape : c ≠ '\\'

theorem plainStep_literal {c : Char} (hc : Literal c) (tokens : List Token) (before : Option Char) :
    plainStep ⟨tokens, []⟩ before c = .ok (.plain (some c), ⟨.literal c :: tokens, []⟩) := by
  unfold plainStep
  split
  · exact absurd rfl hc.ne_byte
  · exact absurd rfl hc.ne_star
  · exact absurd rfl hc.ne_class
  · exact absurd rfl hc.ne_open
  · exact absurd rfl hc.ne_close
  · rfl
  · exact absurd rfl hc.ne_escape
  · rfl

theorem parseFrom_literal {text : List Char} (h : ∀ c ∈ text, Literal c) :
    ∀ (tokens : List Token) (before : Option Char), ∃ before',
      parseFrom ⟨tokens, []⟩ (.plain before) text =
        .ok (.plain before', ⟨(text.map .literal).reverse ++ tokens, []⟩) := by
  induction text with
  | nil => intro tokens before; exact ⟨before, rfl⟩
  | cons c rest ih =>
    intro tokens before
    obtain ⟨before', hr⟩ := ih (fun d hd => h d (List.mem_cons_of_mem _ hd)) (.literal c :: tokens)
      (some c)
    refine ⟨before', ?_⟩
    rw [parseFrom, step, plainStep_literal (h c List.mem_cons_self)]
    simp [hr]

/-- A text without wildcards is the pattern of its characters. -/
theorem parse_literal {text : List Char} (h : ∀ c ∈ text, Literal c) :
    parse text = .ok (text.map .literal) := by
  obtain ⟨before, hp⟩ := parseFrom_literal h [] none
  rw [parse, hp]
  simp [finish, Draft.closed]

theorem parse_behind {dir rest : List Char} (hdir : ∀ c ∈ dir, Literal c) (hne : rest ≠ [])
    (hlast : rest.getLast? ≠ some '/') :
    Agree (Anchored (dir.map .literal)) (parse rest) (parse (dir ++ '/' :: rest)) := by
  obtain ⟨before, hdir⟩ : ∃ before, parseFrom ⟨[], []⟩ (.plain none) dir =
      .ok (.plain before, ⟨(dir.map .literal).reverse, []⟩) := by
    simpa using parseFrom_literal hdir [] none
  have hwhole : parseFrom ⟨[], []⟩ (.plain none) (dir ++ '/' :: rest) =
      parseFrom ⟨.literal '/' :: (dir.map .literal).reverse, []⟩ (.plain (some '/')) rest := by
    rw [parseFrom_append, hdir]
    rfl
  rw [parse, parse, hwhole]
  have hstart : Sync (dir.map .literal).reverse (.plain none, ⟨[], []⟩)
      (.plain (some '/'), ⟨.literal '/' :: (dir.map .literal).reverse, []⟩) := .plain
  rcases (parseFrom_sync rest hstart).outcomes with
    ⟨fault, hd, hw⟩ | ⟨⟨mode, d⟩, ⟨mode', w⟩, hd, hw, hs⟩
  · rw [hd, hw]
    exact .error fault
  · rw [hd, hw]
    have hagree := finish_sync hs fun b hb => by
      subst hb
      rw [parseFrom_last hne hd]
      exact ⟨fun h => hne (List.getLast?_eq_none_iff.mp h), hlast⟩
    rwa [List.reverse_reverse] at hagree

end Glob
end ThemeRules
