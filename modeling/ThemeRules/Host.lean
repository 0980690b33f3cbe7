import ThemeRules.Source.Resolve
import ThemeRules.Style.Component

/-!
# ThemeRules.Host

A style framework that takes part in a build. It has a token table, receives compiled components, and
keeps a slot in which utilities can be stored for compilations that bring none of their own. Only a
successful registration adds a component, and only storing and clearing change the slot. A compilation
borrows the utilities of the host, and shares those of the slot.
-/

namespace ThemeRules

namespace Config

def compile (config : Config) (fs : FileSystem) (registry : PresetRegistry)
    (utilities : Utilities) : Report Component :=
  let resolved := config.resolve fs registry
  match resolved.result with
  | .error error => ⟨resolved.warnings, .error error⟩
  | .ok themes => ⟨resolved.warnings, Component.ofCollection utilities config.naming themes⟩

end Config

structure Host where
  tokens : TokenTable
  components : List Component
  stored : Option Utilities

namespace Host

def start (tokens : TokenTable) : Host := ⟨tokens, [], none⟩

/-- A host looks tokens up in its table, and escapes names itself. -/
def utilities (host : Host) : Utilities where
  lookup path := host.tokens.utilities.lookup path
  escape := escapeIdentifier

/-- What can be asked of a host. Registering and the framework's own callback do the same. -/
inductive Step where
  | register (config : Config) (registry : PresetRegistry)
  | callback (config : Config) (registry : PresetRegistry)
  | compile (config : Config) (registry : PresetRegistry)
  | compileStored (config : Config) (registry : PresetRegistry)
  | resolve (config : Config) (registry : PresetRegistry)
  | store (utilities : Utilities)
  | clear

inductive Reply where
  | done
  | component (component : Component)
  | themes (themes : Collection)

def reply {α : Type} (report : Report α) (make : α → Reply) : Report Reply :=
  ⟨report.warnings, report.result.map make⟩

/-- Compiles against the host and hands it the component. -/
def receive (fs : FileSystem) (host : Host) (config : Config) (registry : PresetRegistry) :
    Host × Report Reply :=
  let report := config.compile fs registry host.utilities.behind
  match report.result with
  | .error error => (host, ⟨report.warnings, .error error⟩)
  | .ok component =>
    ({ host with components := host.components ++ [component] }, ⟨report.warnings, .ok .done⟩)

def compileStored (fs : FileSystem) (host : Host) (config : Config) (registry : PresetRegistry) :
    Report Component :=
  match host.stored with
  | none => ⟨[], .error .noUtilities⟩
  | some utilities => config.compile fs registry utilities.behind

def step (fs : FileSystem) (host : Host) : Step → Host × Report Reply
  | .register config registry => receive fs host config registry
  | .callback config registry => receive fs host config registry
  | .compile config registry =>
    (host, reply (config.compile fs registry host.utilities.behind) .component)
  | .compileStored config registry =>
    (host, reply (compileStored fs host config registry) .component)
  | .resolve config registry => (host, reply (config.resolve fs registry) .themes)
  | .store utilities => ({ host with stored := some utilities }, ⟨[], .ok .done⟩)
  | .clear => ({ host with stored := none }, ⟨[], .ok .done⟩)

def run (fs : FileSystem) (host : Host) : List Step → Host × List (Report Reply)
  | [] => (host, [])
  | first :: rest =>
    let (host, report) := host.step fs first
    let (host, reports) := run fs host rest
    (host, report :: reports)

end Host
end ThemeRules
