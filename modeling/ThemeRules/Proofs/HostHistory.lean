import ThemeRules.Host
import ThemeRules.Proofs.Resolution
import ThemeRules.Proofs.UnknownProperties

/-!
# ThemeRules.Proofs.HostHistory

What a host is after a run of steps. The state is told from the list of steps alone: the components are
those of the registrations that succeeded, and the slot holds what the last step that stores or clears
left there (`run_state`). `run_history` adds what each step answers and what it leaves alone.

Utilities come to a compilation in several ways: from a token table, from a host, and behind a reference
to either. A compilation sees of them what they answer (`compile_alike`), and they all answer alike
(`compile_carriers`); so the steps of a host can be told as compilations over its tokens.

A compilation over stored utilities looks at the slot before it resolves anything. That it fails for want
of utilities only if the slot is empty needs more: no other part of a compilation fails with that error
(`compile_ne_noUtilities`).
-/

namespace ThemeRules

/-! ## Utilities that answer alike -/

/-- The same texts are found at all paths, and all names are escaped in the same way. -/
structure Utilities.Alike (utilities utilities' : Utilities) : Prop where
  text : ∀ path, (utilities.lookup path).bind Json.string? =
    (utilities'.lookup path).bind Json.string?
  escape : ∀ name, utilities.escape name = utilities'.escape name

theorem Utilities.behind_alike (utilities : Utilities) : utilities.behind.Alike utilities :=
  ⟨fun _ => rfl, fun _ => rfl⟩

theorem Host.utilities_alike (host : Host) : host.utilities.Alike host.tokens :=
  ⟨fun _ => rfl, fun _ => rfl⟩

theorem Utilities.Alike.trans {utilities utilities' utilities'' : Utilities}
    (h : utilities.Alike utilities') (h' : utilities'.Alike utilities'') :
    utilities.Alike utilities'' :=
  ⟨fun path => (h.text path).trans (h'.text path), fun name => (h.escape name).trans (h'.escape name)⟩

section Alike

variable {utilities utilities' : Utilities} (h : utilities.Alike utilities')
include h

theorem resolve_alike (generator : Generator) (raw : String) :
    generator.resolve utilities raw = generator.resolve utilities' raw := by
  unfold Generator.resolve Resolution.resolve Utilities.textOr
  simp only [h.text]

theorem declare_alike (className : String) (styles : StyleMap) :
    Style.declare utilities className styles = Style.declare utilities' className styles :=
  Style.declareFrom_congr className (fun e _ generator _ => resolve_alike h generator e.2) .empty

theorem compileFrom_alike (naming : Naming) (vs : List Variant) : ∀ component,
    Component.compileFrom utilities naming component vs =
      Component.compileFrom utilities' naming component vs := by
  induction vs with
  | nil => intro component; rfl
  | cons v rest ih =>
    intro component
    have hselector : v.selector utilities naming = v.selector utilities' naming := by
      simp only [Variant.selector, Naming.generate, h.escape]
    simp only [Component.compileFrom, Variant.declare, declare_alike h, hselector, ih]

theorem layerFrom_alike (naming : Naming) (entries : List (String × Theme)) : ∀ component,
    Component.layerFrom utilities naming component entries =
      Component.layerFrom utilities' naming component entries := by
  induction entries with
  | nil => intro component; rfl
  | cons e rest ih =>
    intro component
    simp only [Component.layerFrom, Component.ofTheme, compileFrom_alike h, ih]

theorem compile_alike (config : Config) (fs : FileSystem) (registry : PresetRegistry) :
    config.compile fs registry utilities = config.compile fs registry utilities' := by
  unfold Config.compile Component.ofCollection
  simp only [layerFrom_alike h]

end Alike

/-- It makes no difference to a compilation whether it has utilities or a reference to them, and whether it
has a host or the tokens of that host. -/
theorem compile_carriers (config : Config) (fs : FileSystem) (registry : PresetRegistry) :
    (∀ utilities : Utilities,
      config.compile fs registry utilities.behind = config.compile fs registry utilities) ∧
    ∀ host : Host,
      config.compile fs registry host.utilities.behind = config.compile fs registry host.tokens :=
  ⟨fun utilities => compile_alike utilities.behind_alike config fs registry,
    fun host => compile_alike (host.utilities.behind_alike.trans host.utilities_alike) config fs
      registry⟩

/-! ## What a compilation can fail with -/

theorem resolve_error {config : Config} {fs : FileSystem} {registry : PresetRegistry} {error : Error}
    (h : (config.resolve fs registry).result = .error error) :
    error = .noThemes ∨ error.ofSource = true := by
  rw [resolve_eq] at h
  cases hl : config.layers fs registry with
  | error failure =>
    simp only [hl] at h
    cases h
    exact .inr (layers_error hl)
  | ok layers =>
    simp only [hl] at h
    split at h
    · cases h
      exact .inl rfl
    · cases h

theorem ofCollection_error {utilities : Utilities} {naming : Naming} {themes : Collection}
    {error : Error} (h : Component.ofCollection utilities naming themes = .error error) :
    ∃ property theme, error = .unknownProperty property theme := by
  rw [← failure?_eq_some, failure?_ofCollection] at h
  obtain ⟨o, -, ho⟩ := Option.map_eq_some_iff.mp h
  exact ⟨o.property, o.className, ho.symm⟩

/-- A compilation has its utilities, so it does not miss them. -/
theorem compile_ne_noUtilities (config : Config) (fs : FileSystem) (registry : PresetRegistry)
    (utilities : Utilities) :
    (config.compile fs registry utilities).result ≠ .error .noUtilities := by
  intro h
  unfold Config.compile at h
  cases hr : (config.resolve fs registry).result with
  | error error =>
    simp only [hr] at h
    cases h
    rcases resolve_error hr with h | h <;> cases h
  | ok themes =>
    simp only [hr] at h
    obtain ⟨property, theme, h⟩ := ofCollection_error h
    cases h

namespace Host

/-! ## Steps -/

/-- What a step puts into the slot, if it changes it. -/
def Step.slot? : Step → Option (Option Utilities)
  | .store utilities => some (some utilities)
  | .clear => some none
  | .register .. | .callback .. | .compile .. | .compileStored .. | .resolve .. => none

/-- The component that a host with these tokens receives from a step. -/
def Step.component? (fs : FileSystem) (tokens : TokenTable) : Step → Option Component
  | .register config registry | .callback config registry =>
    (config.compile fs registry tokens).result.toOption
  | .compile .. | .compileStored .. | .resolve .. | .store _ | .clear => none

/-- What a step is answered by a host with these tokens and this slot. -/
def Step.answer (fs : FileSystem) (tokens : TokenTable) (slot : Option Utilities) :
    Step → Report Reply
  | .register config registry | .callback config registry =>
    reply (config.compile fs registry tokens) fun _ => .done
  | .compile config registry => reply (config.compile fs registry tokens) .component
  | .compileStored config registry =>
    match slot with
    | none => ⟨[], .error .noUtilities⟩
    | some stored => reply (config.compile fs registry stored) .component
  | .resolve config registry => reply (config.resolve fs registry) .themes
  | .store _ | .clear => ⟨[], .ok .done⟩

variable (fs : FileSystem)

theorem receive_eq (host : Host) (config : Config) (registry : PresetRegistry) :
    receive fs host config registry =
      ({ host with components :=
          host.components ++ (config.compile fs registry host.tokens).result.toOption.toList },
        reply (config.compile fs registry host.tokens) fun _ => .done) := by
  simp only [receive, reply, (compile_carriers config fs registry).2 host]
  split
  · rename_i error herror
    rw [herror, Except.toOption, Option.toList_none, List.append_nil]
    rfl
  · rename_i component hcomponent
    rw [hcomponent]
    rfl

/-- All that a step does. -/
theorem step_eq (host : Host) (step : Step) :
    host.step fs step =
      (⟨host.tokens, host.components ++ (step.component? fs host.tokens).toList,
          step.slot?.getD host.stored⟩,
        step.answer fs host.tokens host.stored) := by
  obtain ⟨tokens, components, stored⟩ := host
  cases step with
  | register config registry => exact receive_eq fs _ config registry
  | callback config registry => exact receive_eq fs _ config registry
  | compile config registry =>
    simp only [Host.step, (compile_carriers config fs registry).2, Step.component?,
      Option.toList_none, List.append_nil]
    rfl
  | compileStored config registry =>
    simp only [Host.step, Host.compileStored, (compile_carriers config fs registry).1,
      Step.component?, Step.answer, Option.toList_none, List.append_nil]
    cases stored <;> rfl
  | resolve | store | clear =>
    simp only [Host.step, Step.component?, Option.toList_none, List.append_nil]
    rfl

theorem component?_of_answer_error {tokens : TokenTable} {slot : Option Utilities} {step : Step}
    {error : Error} (h : (step.answer fs tokens slot).result = .error error) :
    step.component? fs tokens = none := by
  cases step with
  | register config registry | callback config registry =>
    simp only [Step.answer, reply] at h
    simp only [Step.component?]
    cases hr : (config.compile fs registry tokens).result with
    | error _ => rfl
    | ok _ => rw [hr] at h; cases h
  | _ => rfl

theorem slot?_of_answer_error {tokens : TokenTable} {slot : Option Utilities} {step : Step}
    {error : Error} (h : (step.answer fs tokens slot).result = .error error) :
    step.slot? = none := by
  cases step with
  | store | clear => cases h
  | _ => rfl

theorem compileStored_noUtilities (tokens : TokenTable) (slot : Option Utilities) (config : Config)
    (registry : PresetRegistry) :
    ((Step.compileStored config registry).answer fs tokens slot).result = .error .noUtilities ↔
      slot = none := by
  cases slot with
  | none => exact ⟨fun _ => rfl, fun _ => rfl⟩
  | some stored =>
    refine ⟨fun h => ?_, fun h => (by cases h)⟩
    simp only [Step.answer, reply] at h
    cases hr : (config.compile fs registry stored).result with
    | error error =>
      rw [hr] at h
      cases h
      exact absurd hr (compile_ne_noUtilities config fs registry stored)
    | ok component => rw [hr] at h; cases h

/-! ## Runs -/

/-- The slot after some steps: what the last of them that changes it has put there. -/
def slotAfter (slot : Option Utilities) (steps : List Step) : Option Utilities :=
  (steps.reverse.findSome? Step.slot?).getD slot

theorem slotAfter_concat (slot : Option Utilities) (steps : List Step) (step : Step) :
    slotAfter slot (steps ++ [step]) = step.slot?.getD (slotAfter slot steps) := by
  rw [slotAfter, List.reverse_concat, List.findSome?_cons]
  cases step.slot? <;> rfl

theorem run_append (first second : List Step) :
    ∀ host : Host, run fs host (first ++ second) =
      ((run fs (run fs host first).1 second).1,
        (run fs host first).2 ++ (run fs (run fs host first).1 second).2) := by
  induction first with
  | nil => intro host; rfl
  | cons step rest ih =>
    intro host
    simp only [List.cons_append, run, ih]

theorem length_run (steps : List Step) :
    ∀ host : Host, (run fs host steps).2.length = steps.length := by
  induction steps with
  | nil => intro host; rfl
  | cons step rest ih =>
    intro host
    simp only [run, List.length_cons, ih]

theorem run_state (host : Host) (steps : List Step) :
    (run fs host steps).1 =
      ⟨host.tokens, host.components ++ steps.filterMap (Step.component? fs host.tokens),
        slotAfter host.stored steps⟩ := by
  induction steps using List.reverseRecOn with
  | nil =>
    rw [List.filterMap_nil, List.append_nil]
    rfl
  | append_singleton steps step ih =>
    -- the last step meets the tokens that the host had at the start: no step changes them
    have hone : [step].filterMap (Step.component? fs host.tokens) =
        (step.component? fs host.tokens).toList := by
      cases h : step.component? fs host.tokens <;> simp [h]
    simp only [run_append, run, step_eq, ih, List.filterMap_append, hone, slotAfter_concat,
      List.append_assoc]

/-- What a step is answered that comes after others, whatever comes after it. -/
theorem run_answer (host : Host) (before after : List Step) (step : Step) :
    (run fs host (before ++ step :: after)).2[before.length]? =
      some (step.answer fs host.tokens (slotAfter host.stored before)) := by
  have hlength := length_run fs before host
  rw [run_append, List.getElem?_append_right (Nat.le_of_eq hlength), hlength, Nat.sub_self, run,
    step_eq, run_state]
  rfl

/-- After any steps, a host has the components of the registrations that succeeded, in their order, and
in the slot what was last stored, unless it was cleared since. Each step is answered by the slot as it
finds it; it changes nothing if it fails, it changes the slot only if it stores or clears, and if it
compiles over the stored utilities it misses them just when there are none. -/
theorem run_history (host : Host) (steps : List Step) :
    (run fs host steps).1 =
        ⟨host.tokens, host.components ++ steps.filterMap (Step.component? fs host.tokens),
          slotAfter host.stored steps⟩ ∧
      (run fs host steps).2.length = steps.length ∧
      ∀ before step after, steps = before ++ step :: after →
        (run fs host steps).2[before.length]? =
          some (step.answer fs host.tokens (slotAfter host.stored before)) ∧
        (∀ error, (step.answer fs host.tokens (slotAfter host.stored before)).result = .error error →
          (run fs host (before ++ [step])).1 = (run fs host before).1) ∧
        (step.slot? = none →
          (run fs host (before ++ [step])).1.stored = (run fs host before).1.stored) ∧
        ∀ config registry, step = .compileStored config registry →
          ((step.answer fs host.tokens (slotAfter host.stored before)).result =
              .error .noUtilities ↔
            slotAfter host.stored before = none) := by
  refine ⟨run_state fs host steps, length_run fs steps host, ?_⟩
  rintro before step after rfl
  refine ⟨run_answer fs host before after step, ?_, ?_, ?_⟩
  · intro error herror
    rw [run_state, run_state, List.filterMap_append, slotAfter_concat, slot?_of_answer_error fs herror,
      List.filterMap_cons_none (component?_of_answer_error fs herror), List.filterMap_nil,
      List.append_nil]
    rfl
  · intro hslot
    rw [run_state, run_state, slotAfter_concat, hslot, Option.getD_none]
  · rintro config registry rfl
    exact compileStored_noUtilities fs host.tokens _ config registry

def cardPreset : PresetRegistry :=
  PresetRegistry.empty.addInline "cards"
    (.ofList [("card", (Theme.named "Card").style "paddingTop" "4")])

def onlyCards : Config := Config.empty.addPreset (.all "cards")

/-- A registration that succeeds and one that does not, and compilations over a slot that is filled and
emptied. -/
def cardSteps : List Step :=
  [.register onlyCards cardPreset, .callback .empty cardPreset, .store oneRem,
    .compileStored onlyCards cardPreset, .clear, .compileStored .empty cardPreset]

theorem cardSteps_history :
    (run ⟨.empty, ⟨['/']⟩⟩ (start ⟨.null⟩) cardSteps).1 =
        ⟨⟨.null⟩, [.ofList [(".card", .ofList [("paddingTop", "4")])]], none⟩ ∧
      (run ⟨.empty, ⟨['/']⟩⟩ (start ⟨.null⟩) cardSteps).2[3]? =
        some ⟨[], .ok (.component (.ofList [(".card", .ofList [("paddingTop", "1rem")])]))⟩ ∧
      (run ⟨.empty, ⟨['/']⟩⟩ (start ⟨.null⟩) cardSteps).2[5]? =
        some ⟨[], .error .noUtilities⟩ := by
  obtain ⟨hstate, -, hsteps⟩ := run_history ⟨.empty, ⟨['/']⟩⟩ (start ⟨.null⟩) cardSteps
  refine ⟨?_, ?_, ?_⟩
  · rw [hstate]
    rfl
  · exact (hsteps (cardSteps.take 3) _ (cardSteps.drop 4) rfl).1
  · exact (hsteps (cardSteps.take 5) _ [] rfl).1

end Host
end ThemeRules
