import Crossing.Log.Setup
import Mathlib.Tactic.ByContra
import Mathlib.Tactic.SplitIfs

/-!
# Where a record goes

Calls that configure the log come between the records in any order. Whatever happened before, a call
does one of four things (`configures`), so that the settings in force are those that the last
successful call answered with (`active_after`), and a log that is configured stays as it is until a
call with proper levels is forced (`after_idle`). Under the settings of a call a record goes to the
places of its level, unless the lowest level in use is zero: a logger of level zero has no level of
its own, and then nothing below a warning is written anywhere (`routes_iff`).
-/

namespace Crossing.Log

namespace Logger

variable {l : Logger} {level : Int}

theorem mem_sinks {sink : Sink} :
    sink ∈ l.sinks level ↔ l.takes level ∧ ∃ h ∈ l.handlers, h.passes level ∧ h.sink = sink := by
  unfold sinks
  split
  · simp_all [and_assoc]
  · simp_all

theorem takes_iff (hpos : 0 < level) : l.takes level ↔ l.threshold ≤ level := by
  simp [takes, hpos]

/-- Places that differ from handler to handler are written to once. -/
theorem nodup_sinks (h : (l.handlers.map (·.sink)).Nodup) : (l.sinks level).Nodup := by
  unfold sinks
  split
  · exact h.sublist (List.filter_sublist.map _)
  · exact List.nodup_nil

end Logger

namespace Settings

variable {s : Settings} {level : Int} {sink : Sink}

/-- The places of a level: the standard output from the level of the console up to the errors, the
error output for the errors that reach this level, and the log file from its own level on. -/
def Routes (s : Settings) (level : Int) : Sink → Prop
  | .out => s.consoleLevel ≤ level ∧ level < errorLevel
  | .error => max s.consoleLevel errorLevel ≤ level
  | .file path => s.file = some path ∧ s.fileLevel ≤ level

instance (s : Settings) (level : Int) (sink : Sink) : Decidable (s.Routes level sink) :=
  match sink with
  | .out => inferInstanceAs (Decidable (_ ∧ _))
  | .error => inferInstanceAs (Decidable (_ ≤ _))
  | .file _ => inferInstanceAs (Decidable (_ ∧ _))

theorem mem_sinks : sink ∈ s.logger.sinks level ↔ s.logger.takes level ∧ s.Routes level sink := by
  rw [Logger.mem_sinks]
  refine and_congr_right fun _ => ?_
  cases sink <;> simp [logger, console, mirror, Handler.passes, Routes]

theorem nodup_sinks : (s.logger.sinks level).Nodup := by
  refine Logger.nodup_sinks ?_
  cases h : s.file <;> simp [logger, console, mirror, h]

theorem logger_threshold (s : Settings) :
    s.logger.threshold = if s.lowest = 0 then warningLevel else s.lowest := rfl

theorem lowest_le_console (s : Settings) : s.lowest ≤ s.consoleLevel := by
  unfold lowest
  split
  · exact Int.min_le_left _ _
  · exact Int.le_refl _

theorem lowest_le_of_routes (h : s.Routes level sink) : s.lowest ≤ level := by
  cases sink with
  | out => exact Int.le_trans s.lowest_le_console h.1
  | error => exact Int.le_trans s.lowest_le_console (Int.max_le.1 h).1
  | file path =>
    rw [lowest, h.1]
    exact Int.le_trans (Int.min_le_right _ _) h.2

/-- The lowest level is that of a handler. -/
theorem lowest_eq (s : Settings) :
    s.lowest = s.consoleLevel ∨ ∃ path, s.file = some path ∧ s.lowest = s.fileLevel := by
  unfold lowest
  cases s.file with
  | none => exact .inl rfl
  | some path =>
    rcases Int.le_total s.consoleLevel s.fileLevel with h | h
    · exact .inl (Int.min_eq_left h)
    · exact .inr ⟨path, rfl, Int.min_eq_right h⟩

section Positive

variable (hpos : 0 < level)
include hpos

theorem takes_of_routes (h : s.Routes level sink) (hzero : s.lowest = 0 → warningLevel ≤ level) :
    s.logger.takes level := by
  rw [Logger.takes_iff hpos, logger_threshold]
  split_ifs with hlevel
  · exact hzero hlevel
  · exact lowest_le_of_routes h

/-- With a lowest level of zero, nothing below a warning is written. -/
theorem sinks_of_lowest_zero (hzero : s.lowest = 0) (hlow : level < warningLevel) :
    s.logger.sinks level = [] := by
  have htakes : ¬ s.logger.takes level := by
    rw [Logger.takes_iff hpos, logger_threshold, if_pos hzero]
    exact Int.not_le.2 hlow
  exact if_neg htakes

/-- A level goes to its places unless a lowest level of zero holds it back. -/
theorem routes_iff : (∀ sink, sink ∈ s.logger.sinks level ↔ s.Routes level sink) ↔
    (s.lowest = 0 → warningLevel ≤ level) := by
  constructor
  · intro h hzero
    by_contra hlow
    have hnone := sinks_of_lowest_zero hpos hzero (Int.not_le.1 hlow)
    -- Zero is the level of a handler, and the level in question is one of its own.
    have hroute : ∃ sink, s.Routes level sink := by
      rcases s.lowest_eq with hlevel | ⟨path, hfile, hlevel⟩
      · exact ⟨.out, by omega, Int.lt_trans (Int.not_le.1 hlow) (by decide)⟩
      · exact ⟨.file path, hfile, by omega⟩
    obtain ⟨sink, hsink⟩ := hroute
    exact List.not_mem_nil (hnone ▸ (h sink).2 hsink)
  · intro hzero sink
    rw [mem_sinks]
    exact and_iff_right_of_imp fun h => takes_of_routes hpos h hzero

/-- Whatever the levels, the errors that reach the console go to the error output. -/
theorem error_mem_sinks : .error ∈ s.logger.sinks level ↔ max s.consoleLevel errorLevel ≤ level := by
  rw [mem_sinks]
  refine and_iff_right_of_imp fun h => takes_of_routes hpos h fun _ => ?_
  exact Int.le_trans (by decide) (Int.max_le.1 h).2

end Positive

theorem not_both : ¬ (.out ∈ s.logger.sinks level ∧ .error ∈ s.logger.sinks level) := by
  rintro ⟨hout, herror⟩
  have hbelow := (mem_sinks.1 hout).2.2
  exact Int.not_le.2 hbelow (Int.max_le.1 (mem_sinks.1 herror).2).2

end Settings

/-- What the log meets in the course of a program. -/
inductive Event where
  | configure (r : Request)
  | record (r : Record)

/-- An event that leaves a configured log as it is. -/
def Event.Idle : Event → Prop
  | .configure r => r.force = false ∨ ∃ why, r.settings = .error why
  | .record _ => True

namespace Setup

def step (s : Setup) : Event → Setup
  | .configure r => (s.configure r).2
  | .record _ => s

/-- The log after some events. -/
def after (s : Setup) (events : List Event) : Setup := events.foldl step s

/-- The settings that the successful calls among some events answer with. -/
def answers (s : Setup) : List Event → List Settings
  | [] => []
  | .configure r :: events => (s.configure r).1.toOption.toList ++ (s.configure r).2.answers events
  | .record _ :: events => s.answers events

/-- What a call can do: nothing, be refused, fail at its log file or succeed. -/
inductive Configures (s : Setup) (r : Request) : Except Failure Settings × Setup → Prop
  | kept {settings : Settings} (h : s.kept r = some settings) : Configures s r (.ok settings, s)
  | refused {why : Refusal} (h : s.kept r = none) (hsettings : r.settings = .error why) :
    Configures s r (.error (.refused why), s)
  | unopened {settings : Settings} {path : String} (h : s.kept r = none)
      (hsettings : r.settings = .ok settings) (hfile : settings.file = some path)
      (hopens : r.opens path = false) :
    Configures s r
      (.error (.unopened path), { s with logger := ⟨settings.lowest, settings.console⟩ })
  | installed {settings : Settings} (h : s.kept r = none) (hsettings : r.settings = .ok settings)
      (hopens : ∀ path, settings.file = some path → r.opens path) :
    Configures s r (.ok settings, ⟨some settings, settings.logger⟩)

variable {s : Setup} {r : Request}

theorem configures (s : Setup) (r : Request) : Configures s r (s.configure r) := by
  unfold configure
  split
  next settings _ h => exact .kept h
  next why h hsettings => exact .refused h hsettings
  next settings h hsettings =>
    unfold install
    split
    next path hpath =>
      obtain ⟨hfile, hopens⟩ := Option.filter_eq_some_iff.1 hpath
      exact .unopened h hsettings hfile (by simpa using hopens)
    next hnone =>
      refine .installed h hsettings fun path hfile => ?_
      simpa using Option.filter_eq_none_iff.1 hnone path hfile

theorem kept_eq_some {settings : Settings} :
    s.kept r = some settings ↔
      s.active = some settings ∧ s.logger.handlers ≠ [] ∧ r.force = false := by
  simp [kept, Option.filter_eq_some_iff]

/-- A log that has settings in force has handlers for them. -/
def Equipped (s : Setup) : Prop := s.active.isSome → s.logger.handlers ≠ []

theorem equipped_configure (h : s.Equipped) (r : Request) : (s.configure r).2.Equipped := by
  have hcall := configures s r
  generalize s.configure r = result at hcall ⊢
  cases hcall with
  | kept | refused => exact h
  | unopened | installed => exact fun _ => List.cons_ne_nil _ _

theorem active_configure (s : Setup) (r : Request) :
    (s.configure r).2.active = (s.configure r).1.toOption.or s.active := by
  have hcall := configures s r
  generalize s.configure r = result at hcall ⊢
  cases hcall with
  | kept h => exact (kept_eq_some.1 h).1
  | refused | unopened | installed => rfl

theorem equipped_after (h : s.Equipped) (events : List Event) : (s.after events).Equipped := by
  induction events generalizing s with
  | nil => exact h
  | cons e events ih =>
    cases e with
    | configure r => exact ih (equipped_configure h r)
    | record => exact ih h

/-- The settings in force are those that the last successful call answered with. -/
theorem active_after (s : Setup) (events : List Event) :
    (s.after events).active = (s.answers events).getLast?.or s.active := by
  induction events generalizing s with
  | nil => rfl
  | cons e events ih =>
    cases e with
    | configure r =>
      refine (ih (s.configure r).2).trans ?_
      rw [active_configure, answers, List.getLast?_append, Option.or_assoc]
      cases (s.configure r).1 <;> rfl
    | record => exact ih s

theorem configure_of_unforced (h : s.Equipped) {settings : Settings}
    (hactive : s.active = some settings) (hforce : r.force = false) :
    s.configure r = (.ok settings, s) := by
  have hkept : s.kept r = some settings :=
    kept_eq_some.2 ⟨hactive, h (Option.isSome_of_eq_some hactive), hforce⟩
  rw [configure, hkept]

theorem configure_of_error {why : Refusal} (h : r.settings = .error why) :
    (s.configure r).2 = s := by
  have hcall := configures s r
  generalize s.configure r = result at hcall ⊢
  cases hcall with
  | kept | refused => rfl
  | unopened _ hsettings | installed _ hsettings => exact nomatch h.symm.trans hsettings

theorem configure_of_refused {why : Refusal} (h : (s.configure r).1 = .error (.refused why)) :
    (s.configure r).2 = s := by
  have hcall := configures s r
  generalize s.configure r = result at hcall h ⊢
  cases hcall with
  | kept | refused => rfl
  | unopened | installed => exact nomatch h

theorem after_idle (h : s.Equipped) (hactive : s.active.isSome) {events : List Event}
    (hidle : ∀ e ∈ events, e.Idle) : s.after events = s := by
  induction events with
  | nil => rfl
  | cons e events ih =>
    have hrest := ih fun e he => hidle e (List.mem_cons_of_mem _ he)
    suffices hstep : s.step e = s by
      exact (congrArg (·.after events) hstep).trans hrest
    cases e with
    | record => rfl
    | configure r =>
      obtain ⟨settings, hsettings⟩ := Option.isSome_iff_exists.1 hactive
      rcases hidle _ List.mem_cons_self with hforce | ⟨why, hwhy⟩
      · exact congrArg Prod.snd (configure_of_unforced h hsettings hforce)
      · exact configure_of_error hwhy

theorem after_append (s : Setup) (events later : List Event) :
    s.after (events ++ later) = (s.after events).after later := List.foldl_append

/-- A call that is not met with settings in force and succeeds sets its own settings up. -/
theorem configure_installs {settings : Settings} (hkept : s.kept r = none)
    (h : (s.configure r).1 = .ok settings) :
    r.settings = .ok settings ∧ (s.configure r).2 = ⟨some settings, settings.logger⟩ := by
  have hcall := configures s r
  generalize s.configure r = result at hcall h ⊢
  cases hcall with
  | kept hsome => exact nomatch hkept.symm.trans hsome
  | refused | unopened => exact nomatch h
  | installed _ hsettings =>
    cases h
    exact ⟨hsettings, rfl⟩

theorem kept_eq_none (h : r.force = true ∨ s.active = none) : s.kept r = none := by
  rw [Option.eq_none_iff_forall_ne_some]
  intro settings hkept
  obtain ⟨hactive, -, hforce⟩ := kept_eq_some.1 hkept
  rcases h with h | h
  · exact nomatch hforce.symm.trans h
  · exact nomatch h.symm.trans hactive

end Setup

/-- Over any calls and records, a refused call changes nothing, and an unforced call after a
successful one changes nothing and answers with the settings of the last one that succeeded. From a
call on that sets its settings up, as long as nothing but idle events follow, no record goes to both
outputs or to one place twice, and the error output has what reaches its level. That a record of
positive level goes to the places of its level, and nowhere else, depends on one thing: where the
lowest level in use is zero, it has to be a warning at least, or else it goes nowhere. -/
theorem configured_routing (events : List Event) (r : Request) :
    let log := Setup.after {} events
    ((∃ why, (log.configure r).1 = .error (.refused why)) → (log.configure r).2 = log) ∧
    (∀ settings, (Setup.answers {} events).getLast? = some settings → r.force = false →
      log.active = some settings ∧ log.configure r = (.ok settings, log)) ∧
    ∀ settings, (log.configure r).1 = .ok settings →
      r.force = true ∨ Setup.answers {} events = [] →
      r.settings = .ok settings ∧
      ∀ later, (∀ e ∈ later, e.Idle) → ∀ level, 0 < level →
        let sinks := (Setup.after {} (events ++ .configure r :: later)).logger.sinks level
        sinks.Nodup ∧ ¬ (.out ∈ sinks ∧ .error ∈ sinks) ∧
        (.error ∈ sinks ↔ max settings.consoleLevel errorLevel ≤ level) ∧
        ((∀ sink, sink ∈ sinks ↔ settings.Routes level sink) ↔
          (settings.lowest = 0 → warningLevel ≤ level)) ∧
        (settings.lowest = 0 → level < warningLevel → sinks = []) := by
  intro log
  have hequipped : log.Equipped := Setup.equipped_after (s := {}) (by simp [Setup.Equipped]) events
  have hactive : log.active = (Setup.answers {} events).getLast? :=
    (Setup.active_after {} events).trans (Option.or_none ..)
  refine ⟨?refused, ?unforced, fun settings hcall hfresh => ?installed⟩
  case refused =>
    rintro ⟨why, hwhy⟩
    exact Setup.configure_of_refused hwhy
  case unforced =>
    intro settings hlast hforce
    have hsettings := hactive.trans hlast
    exact ⟨hsettings, Setup.configure_of_unforced hequipped hsettings hforce⟩
  case installed =>
    have hkept : log.kept r = none :=
      Setup.kept_eq_none (hfresh.imp_right fun h => by rw [hactive, h, List.getLast?_nil])
    obtain ⟨hsettings, hnext⟩ := Setup.configure_installs hkept hcall
    refine ⟨hsettings, fun later hidle level hpos => ?_⟩
    have hlater : Setup.after {} (events ++ .configure r :: later)
        = ⟨some settings, settings.logger⟩ := by
      rw [Setup.after_append]
      change ((log.configure r).2).after later = _
      rw [hnext]
      exact Setup.after_idle (fun _ => List.cons_ne_nil _ _) rfl hidle
    rw [hlater]
    exact ⟨Settings.nodup_sinks, Settings.not_both, Settings.error_mem_sinks hpos,
      Settings.routes_iff hpos, Settings.sinks_of_lowest_zero hpos⟩

section Examples

/-- A call in `/work`, where every log file can be opened. -/
def asking (config : Json.Fields) (force : Bool) : Request :=
  ⟨config, .null, force, "/work", fun _ => true⟩

def mirrored : Request :=
  asking [("console_level", .str "debug"), ("file_level", .int 20), ("file", .str "rua.log")] false

def chatty : Request := asking [("console_level", .str "chatty")] true

def silent : Request := asking [("console_level", .str "critical")] false

def openConsole : Request := asking [("console_level", .int 0)] false

def openFile : Request := asking [("file_level", .int 0), ("file", .str "rua.log")] false

def meanwhile : List Event :=
  [.record (debug "rua.native" "read"), .configure chatty, .configure silent]

theorem configured_routing_mirrored :
    ((Setup.after {} [.configure mirrored]).configure chatty).2
        = Setup.after {} [.configure mirrored] ∧
      (Setup.after {} [.configure mirrored]).configure silent
        = (.ok ⟨10, 20, some "/work/rua.log"⟩, Setup.after {} [.configure mirrored]) ∧
      .out ∈ (Setup.after {} (.configure mirrored :: meanwhile)).logger.sinks 15 ∧
      .file "/work/rua.log" ∉ (Setup.after {} (.configure mirrored :: meanwhile)).logger.sinks 15 ∧
      .error ∈ (Setup.after {} (.configure mirrored :: meanwhile)).logger.sinks 40 ∧
      (Setup.after {} [.configure openConsole]).logger.sinks 29 = [] := by
  have hidle : ∀ e ∈ meanwhile, e.Idle := by
    intro e he
    simp only [meanwhile, List.mem_cons, List.not_mem_nil, or_false] at he
    rcases he with rfl | rfl | rfl
    · exact True.intro
    · exact .inr ⟨_, rfl⟩
    · exact .inl rfl
  have hmirrored := ((configured_routing [] mirrored).2.2 ⟨10, 20, some "/work/rua.log"⟩ rfl
    (.inr rfl)).2 meanwhile hidle
  have hroutes := (hmirrored 15 (by decide)).2.2.2.1.2 (by decide)
  have hopen := ((configured_routing [] openConsole).2.2 ⟨0, 10, none⟩ rfl (.inr rfl)).2 [] nofun
  exact ⟨(configured_routing [.configure mirrored] chatty).1 ⟨_, rfl⟩,
    ((configured_routing [.configure mirrored] silent).2.1 _ rfl rfl).2,
    (hroutes .out).2 (by decide), mt (hroutes (.file _)).1 (by decide),
    (hmirrored 40 (by decide)).2.2.1.2 (by decide),
    (hopen 29 (by decide)).2.2.2.2 rfl (by decide)⟩

/-- With a console level of zero, a debug record should be shown and is not. With a file level of
zero, a record for information should be shown and kept, and is neither. -/
theorem withheld_at_zero :
    (Setup.answers {} [.configure openConsole] = [⟨0, 10, none⟩] ∧
      Settings.Routes ⟨0, 10, none⟩ debugLevel .out ∧
      (Setup.after {} [.configure openConsole]).logger.sinks debugLevel = []) ∧
    (Setup.answers {} [.configure openFile] = [⟨20, 0, some "/work/rua.log"⟩] ∧
      (∀ sink ∈ [.out, .file "/work/rua.log"],
        Settings.Routes ⟨20, 0, some "/work/rua.log"⟩ infoLevel sink) ∧
      (Setup.after {} [.configure openFile]).logger.sinks infoLevel = []) :=
  ⟨⟨rfl, by decide, rfl⟩, rfl, by decide, rfl⟩

end Examples

end Crossing.Log
