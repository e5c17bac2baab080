import TextureMemory.Scene
import TextureMemory.Settings.Error
import TextureMemory.Settings.Text

/-!
# The demonstration

The demonstration draws the streaming scene for `Demo.frameCount` frames and reports on it. The
`Demo.Report` holds a log, line by line, and what there is to say about the first error, at which
the demonstration stops. A call that gets no memory is logged as a warning before that.
-/

namespace TextureMemory.Demo

/-- The version of this library. -/
def version : String := "0.1.0"

/-- The number of frames that are drawn. -/
def frameCount : Nat := 240

/-- What the demonstration says, and how it ends. -/
structure Report where
  /-- Whether it ended without an error. -/
  succeeded : Bool
  /-- The lines of the log. -/
  log : List String
  /-- The lines that explain the error. -/
  complaint : List String
deriving DecidableEq, Repr

/-- How severe a line of the log is. -/
inductive Level where
  /-- The usual course of things. -/
  | info
  /-- Something went wrong. -/
  | warn
deriving DecidableEq, Repr

/-- A line of the log: how severe it is, who says it, and what. -/
def line (level : Level) (source text : String) : String :=
  let mark := match level with
    | .info => "INFO"
    | .warn => "WARN"
  s!"{mark} {source}: {text}"

/-- A line of the demonstration itself. -/
def say (text : String) : String := line .info "vtex" text

/-- A line of a texture call that went wrong. -/
def warn (text : String) : String := line .warn "vtex_core::context" text

/-- The lines that explain an error with its causes, the nearest first. -/
def explain (message : String) (causes : List String) : List String :=
  s!"Error: {message}" ::
    match causes with
    | [] => []
    | [cause] => ["", "Caused by:", s!"    {cause}"]
    | _ => "" :: "Caused by:" :: causes.zipIdx.map fun (cause, i) => s!"    {i}: {cause}"

/-- The warning of a definition that got no memory, made in the state that it left. -/
def definitionWarning (c : Context) (e : TextureError) : List String :=
  match e, c.units.bound with
  | .memory cause@(.outOfMemory _ size _), .ok (.ok slot) =>
    [warn s!"texture definition failed slot={slot.text} size={size} error={cause.message}"]
  | _, _ => []

/-- The warning of a frame that got no memory, made in the state that it left. -/
def reclamationWarning (c : Context) (e : TextureError) : List String :=
  match e, c.units.bound with
  | .memory cause, .ok (.ok slot) =>
    [warn s!"texture reclamation failed slot={slot.text} frame={c.frame} error={cause.message}"]
  | _, _ => []

/-- The line about the choices. -/
def settingsLine (s : Settings) : String :=
  say <| "settings loaded" ++ s!" purge_threshold={s.purgeThreshold}" ++
    s!" align_unit={s.alignUnit}" ++ s!" memory_class={s.memoryClass.label}"

/-- The lines about the frames that were drawn. -/
def summary (c : Context) : Except Fault (List String) := do
  let stats ← c.stats
  let mean ← c.window.mean
  let peak := c.window.peak
  let loop := say <| "render loop finished" ++
    s!" frames={stats.frame} textures={stats.textures} live_bytes={stats.bytes}" ++
    s!" reclaims={stats.reclaims} avg_reclaimed={mean} peak_reclaimed={peak}"
  let counters := c.tally.toList
  return loop :: counters.map fun (name, n) => say s!"{name}: {n}"

/-- Draws the scene in a context and reports on it, given the log so far. -/
def drawScene (log : List String) (c : Context) : Except Fault Report := do
  let fail (log : List String) (message : String) : Report := ⟨false, log, explain message []⟩
  match ← Scene.start c with
  | (.error e, c) => return fail (log ++ definitionWarning c e) e.message
  | (.ok scene, c) =>
    match ← Scene.frames frameCount c with
    | (.error e, c) => return fail (log ++ reclamationWarning c e) e.message
    | (.ok (), c) =>
      let log := log ++ (← summary c)
      match ← scene.teardown c with
      | (.error e, _) => return fail log e.message
      | (.ok (), c) =>
        if c.heap.count = 0 then return ⟨true, log, []⟩
        else return fail log "texture memory leaked after teardown"

/-- The report of a demonstration with the settings that were found at a path, or with the standard
settings if there is no path. -/
def run (file : Option (String × Except SettingsError Settings)) : Except Fault Report := do
  let log := [say s!"vtex v{version}"]
  match file with
  | some (path, .error e) =>
    return ⟨false, log, explain s!"loading settings from {path}" e.causes⟩
  | some (_, .ok settings) => begin log settings
  | none => begin log .standard
where
  /-- Draws the scene in a context of its own. -/
  begin (log : List String) (settings : Settings) : Except Fault Report := do
    let log := log ++ [settingsLine settings]
    match ← Context.ofSettings settings (.ofBudgets settings.pools) with
    | .error e => return ⟨false, log, explain e.message e.causes.tail⟩
    | .ok c => drawScene log c

end TextureMemory.Demo
