/-
# The settings of the termination

`buildConfiguration` reads the settings when the termination starts, and
`handleConfigChange` reads the log level and the trace again when the file was written.  A
file of more than 2048 bytes is refused by both, as is one with an error in it.

`reload_eq_restart_iff`: where both succeed, what a reload sets is what a restart would set,
unless the file does not say `start` or `stop` for the trace: a restart leaves the trace on
then, and a reload turns it off.

The log file that is opened under the volume is left out, and `getenv` is a parameter.
-/

import NearRtRic.E2Term.ReadConfigFile
import NearRtRic.E2Term.SetupPayload

namespace NearRtRic.E2Term

open CString

inductive LogLevel where
  | MDCLOG_ERR
  | MDCLOG_WARN
  | MDCLOG_INFO
  | MDCLOG_DEBUG
  deriving DecidableEq, Repr

deriving instance DecidableEq for SctpParams

/-- The fields of `sctp_params_t` that the configuration sets. -/
structure Settings extends SctpParams where
  sctpPort : UInt16
  logLevel : LogLevel
  volume : Bytes
  fqdn : Bytes
  podName : Bytes
  trace : Bool
  /-- What `snprintf` prints, which is longer than `ka_message` where it was cut. -/
  kaText : Bytes
  deriving DecidableEq

/-- `transform(…, ::tolower)`. -/
def tolower (text : Bytes) : Bytes := text.map lower

/-- A log level that is missing or not known is `MDCLOG_INFO`. -/
def logLevel (entries : Entries) : LogLevel :=
  let text := tolower (getStringValue entries (ascii "loglevel"))
  if text = ascii "debug" then .MDCLOG_DEBUG
  else if text = ascii "info" then .MDCLOG_INFO
  else if text = ascii "warning" then .MDCLOG_WARN
  else if text = ascii "error" then .MDCLOG_ERR
  else .MDCLOG_INFO

/-- The trace when the termination starts: on, unless the file stops it. -/
def startTrace (entries : Entries) : Bool :=
  let text := tolower (getStringValue entries (ascii "trace"))
  if text = ascii "start" then true else if text = ascii "stop" then false else true

/-- The trace after a change of the file: off, unless the file starts it. -/
def reloadTrace (entries : Entries) : Bool :=
  let value := getStringValue entries (ascii "trace")
  let text := tolower (if value = [] then ascii "stop" else value)
  if text = ascii "start" then true else if text = ascii "stop" then false else false

/-- The message that announces the termination to the E2 manager. -/
def kaText (params : SctpParams) (fqdn podName : Bytes) : Bytes :=
  ascii "\x7b\"address\": \"" ++ visible params.myIP ++ ascii ":" ++
    ascii (toString params.rmrPort.toNat) ++ ascii "\",\"fqdn\": \"" ++ visible fqdn ++
    ascii "\",\"pod_name\": \"" ++ visible podName ++ ascii "\"\x7d"

/-- The file as it is read, `none` where it is missing, too long or has an error. -/
def readConfig (file : Option Bytes) : Option Entries :=
  match file with
  | none => none
  | some file => if 2048 < file.length then none else openConfigFile file

/-- The text of an entry, which must not be empty. -/
def required (entries : Entries) (key : String) : Option Bytes :=
  let value := getStringValue entries (ascii key)
  if value = [] then none else some value

/-- The number of an entry as a port, `-1` standing for an entry that is missing. -/
def requiredPort (entries : Entries) (key : String) : Option UInt16 :=
  let port := getIntValue entries (ascii key)
  if port = -1 then none else some (UInt16.ofNat (port % 2 ^ 16).toNat)

/-- `buildConfiguration`; `none` is the result `-1`, with which the termination ends. -/
def buildConfiguration (file : Option Bytes) (getenv : Bytes → Option Bytes) :
    Option Settings := do
  let conf ← readConfig file
  let rmrPort ← requiredPort conf "nano"
  let volume ← required conf "volume"
  let myIP ← required conf "local-ip"
  let sctpPort ← requiredPort conf "sctp-port"
  let fqdn ← required conf "external-fqdn"
  let pod ← required conf "pod_name"
  let podName ← getenv (visible pod)
  if podName = [] then none
  else
    some { myIP, rmrPort, sctpPort, logLevel := logLevel conf, volume := volume.take 255, fqdn,
           podName, trace := startTrace conf, kaText := kaText ⟨myIP, rmrPort⟩ fqdn podName }

/-- What a change of the file sets. -/
structure Level where
  logLevel : LogLevel
  trace : Bool
  deriving DecidableEq, Repr

def Settings.level (s : Settings) : Level := ⟨s.logLevel, s.trace⟩

/-- An event of inotify: whether it is about a directory, the name it has, and whether a file
was closed that had been open for writing. -/
structure InotifyEvent where
  isDir : Bool
  name : Option Bytes
  closeWrite : Bool
  deriving DecidableEq, Repr

/-- It says that the file was written. -/
def InotifyEvent.rewrites (configFileName : Bytes) (event : InotifyEvent) : Bool :=
  !event.isDir && (event.name.elim true (· = configFileName)) && event.closeWrite

/-- `handleConfigChange` among the events of a read: whether another read follows, and whether
the function has returned. -/
structure Reload where
  level : Level
  endlessLoop : Bool := true
  returned : Bool := false

/-- An event, with the file as it is then; one that cannot be read ends the function. -/
def Reload.event (configFileName : Bytes) (r : Reload) (e : InotifyEvent × Option Bytes) :
    Reload :=
  if r.returned || !e.1.rewrites configFileName then r
  else match readConfig e.2 with
    | none => { r with returned := true }
    | some conf => { r with level := ⟨logLevel conf, reloadTrace conf⟩, endlessLoop := false }

/-- `handleConfigChange` on the events of one `read` after the other. -/
def handleConfigChange (configFileName : Bytes) :
    Level → List (List (InotifyEvent × Option Bytes)) → Level
  | level, [] => level
  | level, events :: reads =>
      let r := events.foldl (Reload.event configFileName) ⟨level, true, false⟩
      if r.endlessLoop && !r.returned then handleConfigChange configFileName r.level reads
      else r.level

variable {configFileName : Bytes} {file : Option Bytes} {conf : Entries} {level : Level}

/-! ### Reloading -/

/-- The events of one read, where the file is the same whenever it is read. -/
theorem foldl_events (hconf : readConfig file = some conf)
    (events : List (InotifyEvent × Option Bytes))
    (hfile : ∀ e ∈ events, e.1.rewrites configFileName → e.2 = file) (r : Reload)
    (hr : r.returned = false) :
    events.foldl (Reload.event configFileName) r =
      if events.any (·.1.rewrites configFileName) then
        ⟨⟨logLevel conf, reloadTrace conf⟩, false, false⟩
      else r := by
  induction events generalizing r with
  | nil => rfl
  | cons e events ih =>
      have hrest := fun r' hr' => ih (fun e' he' => hfile e' (List.mem_cons_of_mem e he')) r' hr'
      rw [List.foldl_cons, List.any_cons, Reload.event, hr, Bool.false_or]
      cases hrewrites : e.1.rewrites configFileName with
      | false =>
          rw [Bool.not_false, if_pos rfl, Bool.false_or]
          exact hrest r hr
      | true =>
          rw [hfile e List.mem_cons_self hrewrites, hconf, Bool.true_or, if_pos rfl]
          dsimp only
          rw [if_neg (by decide)]
          refine (hrest _ rfl).trans ?_
          split <;> rfl

/-- **A change of the file is seen**, wherever it stands among the events. -/
theorem handleConfigChange_of_rewrites (hconf : readConfig file = some conf)
    {reads : List (List (InotifyEvent × Option Bytes))}
    (hfile : ∀ events ∈ reads, ∀ e ∈ events, e.1.rewrites configFileName → e.2 = file)
    (hsome : ∃ events ∈ reads, ∃ e ∈ events, e.1.rewrites configFileName) :
    handleConfigChange configFileName level reads = ⟨logLevel conf, reloadTrace conf⟩ := by
  induction reads with
  | nil =>
      obtain ⟨_, hmem, -⟩ := hsome
      cases hmem
  | cons events reads ih =>
      rw [handleConfigChange, foldl_events hconf events (hfile events List.mem_cons_self) _ rfl]
      cases hany : events.any (·.1.rewrites configFileName) with
      | true => rfl
      | false =>
          have hnone : ¬ ∃ e ∈ events, e.1.rewrites configFileName := by simpa using hany
          refine ih (fun es hes => hfile es (List.mem_cons_of_mem events hes)) ?_
          obtain ⟨es, hes, hrewrites⟩ := hsome
          rcases List.mem_cons.1 hes with rfl | hes
          · exact absurd hrewrites hnone
          · exact ⟨es, hes, hrewrites⟩

/-- What a start sets comes from a file that could be read. -/
structure ReadFrom (s : Settings) (file : Option Bytes) (conf : Entries) : Prop where
  read : readConfig file = some conf
  level : s.level = ⟨logLevel conf, startTrace conf⟩
  address : s.myIP = getStringValue conf (ascii "local-ip")
  message : s.kaText = kaText s.toSctpParams s.fqdn s.podName

/-- Settings that were built come from a file that was read. -/
theorem readFrom_of_buildConfiguration {getenv : Bytes → Option Bytes} {s : Settings}
    (h : buildConfiguration file getenv = some s) : ∃ conf, ReadFrom s file conf := by
  unfold buildConfiguration at h
  obtain ⟨conf, hconf, h⟩ := Option.bind_eq_some_iff.1 h
  obtain ⟨rmrPort, -, h⟩ := Option.bind_eq_some_iff.1 h
  obtain ⟨volume, -, h⟩ := Option.bind_eq_some_iff.1 h
  obtain ⟨myIP, hmyIP, h⟩ := Option.bind_eq_some_iff.1 h
  obtain ⟨sctpPort, -, h⟩ := Option.bind_eq_some_iff.1 h
  obtain ⟨fqdn, -, h⟩ := Option.bind_eq_some_iff.1 h
  obtain ⟨pod, -, h⟩ := Option.bind_eq_some_iff.1 h
  obtain ⟨podName, -, h⟩ := Option.bind_eq_some_iff.1 h
  split at h
  · cases h
  · obtain rfl := Option.some.inj h
    refine ⟨conf, hconf, rfl, ?_, rfl⟩
    unfold required at hmyIP
    dsimp only at hmyIP
    split at hmyIP
    · cases hmyIP
    · exact (Option.some.inj hmyIP).symm

/-- The address is not longer than a file may be. -/
theorem ReadFrom.length_myIP_le {s : Settings} (h : ReadFrom s file conf) :
    s.myIP.length ≤ 2048 := by
  have hconf := h.read
  rw [h.address]
  unfold readConfig at hconf
  split at hconf
  · cases hconf
  · split at hconf
    · cases hconf
    · rename_i hlength
      exact (length_getStringValue_le hconf _).trans (not_lt.1 hlength)

/-- A reload and a start take the same from the setting exactly if it is one of the two words. -/
theorem reloadTrace_eq_startTrace_iff : reloadTrace conf = startTrace conf ↔
    tolower (getStringValue conf (ascii "trace")) ∈ [ascii "start", ascii "stop"] := by
  unfold reloadTrace startTrace
  dsimp only
  by_cases hnil : getStringValue conf (ascii "trace") = []
  · rw [hnil]
    decide
  · rw [if_neg hnil]
    by_cases hstart : tolower (getStringValue conf (ascii "trace")) = ascii "start"
    · simp [hstart]
    · by_cases hstop : tolower (getStringValue conf (ascii "trace")) = ascii "stop"
      · simp [hstop]
      · simp [hstart, hstop]

/-- **A reload sets what a restart would set** exactly if the file says `start` or `stop` for the
trace. -/
theorem reload_eq_restart_iff {getenv : Bytes → Option Bytes} {s : Settings}
    (h : buildConfiguration file getenv = some s) (configFileName : Bytes) (level : Level)
    {reads : List (List (InotifyEvent × Option Bytes))}
    (hfile : ∀ events ∈ reads, ∀ e ∈ events, e.1.rewrites configFileName → e.2 = file)
    (hsome : ∃ events ∈ reads, ∃ e ∈ events, e.1.rewrites configFileName) :
    handleConfigChange configFileName level reads = s.level ↔
      ∃ conf, readConfig file = some conf ∧
        tolower (getStringValue conf (ascii "trace")) ∈ [ascii "start", ascii "stop"] := by
  obtain ⟨conf, hread⟩ := readFrom_of_buildConfiguration h
  rw [handleConfigChange_of_rewrites hread.read hfile hsome, hread.level, Level.mk.injEq,
    and_iff_right rfl, reloadTrace_eq_startTrace_iff, hread.read]
  simp

/-- A file that says nothing about the trace. -/
def silentConfig : Bytes :=
  ascii "nano = 38000\nloglevel = debug\nvolume = log\nlocal-ip = 10.0.2.15\n" ++
    ascii "sctp-port = 36422\nexternal-fqdn = e2t.com\npod_name = E2TERM_POD_NAME\n"

/-- The condition for a reload of the file that says nothing about the trace. -/
theorem reload_eq_restart_iff_silentConfig :
    ∃ s, buildConfiguration (some silentConfig) (fun _ => some (ascii "e2term-0")) = some s ∧
      (handleConfigChange (ascii "config.conf") ⟨.MDCLOG_ERR, true⟩
          [[(⟨false, some (ascii "config.conf"), true⟩, some silentConfig)]] = s.level ↔
        ∃ conf, readConfig (some silentConfig) = some conf ∧
          tolower (getStringValue conf (ascii "trace")) ∈ [ascii "start", ascii "stop"]) := by
  obtain ⟨s, hs⟩ := Option.isSome_iff_exists.1 (show (buildConfiguration (some silentConfig)
    fun _ => some (ascii "e2term-0")).isSome by decide +kernel)
  refine ⟨s, hs, reload_eq_restart_iff hs _ _ ?_ ⟨_, List.mem_cons_self, _, List.mem_cons_self, ?_⟩⟩
  · simp
  · decide +kernel

end NearRtRic.E2Term
