import AlarmPanel.Backoff
import AlarmPanel.Settings.Reading

/-!
# Settings of the client
-/

namespace AlarmPanel

structure ClientSettings where
  /-- Seconds between two queries of the panel's status. -/
  updateSeconds : UInt64
  /-- Whether a known arming state outlasts an empty arming status. -/
  inferArming : Bool
  /-- Milliseconds that the client's own requests wait for their answer. -/
  requestMillis : UInt64
  /-- Seconds beyond the update interval after which a silent link is given up. -/
  graceSeconds : UInt64
  backoffMinMillis : UInt64
  backoffMaxMillis : UInt64
  backoffFactor : UInt32
  /-- How many notices a subscriber may fall behind. -/
  noticeCapacity : UInt64
  deriving DecidableEq

namespace ClientSettings

def default : ClientSettings :=
  { updateSeconds := 60, inferArming := false, requestMillis := 5000, graceSeconds := 30,
    backoffMinMillis := 100, backoffMaxMillis := 10000, backoffFactor := 2,
    noticeCapacity := 256 }

/-- The time between two queries, never less than a second. -/
def updateInterval (s : ClientSettings) : Duration :=
  Duration.ofSeconds (if s.updateSeconds = 0 then 1 else s.updateSeconds)

def requestTimeout (s : ClientSettings) : Duration := Duration.ofMillis s.requestMillis

/-- The silence after which a link is given up, if it is a duration. -/
def staleAfter? (s : ClientSettings) : Option Duration :=
  s.updateInterval.add? (Duration.ofSeconds s.graceSeconds)

def backoff (s : ClientSettings) : Backoff :=
  Backoff.new (Duration.ofMillis s.backoffMinMillis) (Duration.ofMillis s.backoffMaxMillis)
    s.backoffFactor

/-- The settings with one of them read from a file. -/
def set? (s : ClientSettings) (name : String) (value : SettingValue) : Option ClientSettings :=
  match name with
  | "update_interval_secs" => value.word64?.map fun v => { s with updateSeconds := v }
  | "infer_arming_state" => value.flag?.map fun v => { s with inferArming := v }
  | "request_timeout_ms" => value.word64?.map fun v => { s with requestMillis := v }
  | "stale_grace_secs" => value.word64?.map fun v => { s with graceSeconds := v }
  | "backoff_min_ms" => value.word64?.map fun v => { s with backoffMinMillis := v }
  | "backoff_max_ms" => value.word64?.map fun v => { s with backoffMaxMillis := v }
  | "backoff_factor" => value.word32?.map fun v => { s with backoffFactor := v }
  | "event_channel_capacity" => value.word64?.map fun v => { s with noticeCapacity := v }
  | _ => some s

/-- The settings that a file gives, if it gives each setting a value of its kind. -/
def read? (entries : List (String × SettingValue)) : Option ClientSettings :=
  entries.foldlM (fun s (name, value) => s.set? name value) default

end ClientSettings

end AlarmPanel
