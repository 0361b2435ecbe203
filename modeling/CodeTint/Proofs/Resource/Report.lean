import CodeTint.Proofs.Resource.History

/-!
What a request for resources reports. It tells once of each key that was asked for: of those that
were loaded then, and of each load that it has started or joined. Main statement: in whatever order
requests, ends of loads and resets follow, such a load is reported as it ended, to all that wait for
it, and no key depends on another one.
-/

set_option autoImplicit false
set_option relaxedAutoImplicit false

namespace CodeTint

namespace LoadRequest

/-- The keys of a request, those that were loaded before the others. -/
def keys (r : LoadRequest) : List ResourceKey := r.ready ++ r.waits.map (·.1)

structure Stands (r : LoadRequest) (c : Cache) : Prop where
  ready : ∀ key ∈ r.ready, c.contains key = true
  waits : ∀ w ∈ r.waits, c.flight? w.1 = some w.2

variable {r : LoadRequest} {c : Cache}

private theorem Stands.wait (stands : r.Stands c) {key : ResourceKey} {number : Nat}
    (flight : c.flight? key = some number) :
    ({ r with waits := r.waits ++ [(key, number)] } : LoadRequest).Stands c := by
  refine ⟨stands.ready, fun w member => ?_⟩
  rcases List.mem_append.mp member with old | new
  · exact stands.waits w old
  · obtain rfl := List.mem_singleton.mp new
    exact flight

private theorem Stands.start (stands : r.Stands c) {key : ResourceKey}
    (grounded : c.flight? key = none) : r.Stands (c.start key) := by
  refine ⟨stands.ready, fun w member => ?_⟩
  have flight := stands.waits w member
  have different : w.1 ≠ key := by
    intro same
    rw [same, grounded] at flight
    cases flight
  rw [Cache.flight?_start_of_ne different, flight]

private theorem Stands.requestKey (stands : r.Stands c) (key : ResourceKey) :
    (c.requestKey r key).2.Stands (c.requestKey r key).1 ∧
      (c.requestKey r key).2.keys.Perm (key :: r.keys) := by
  have last : ∀ number, ({ r with waits := r.waits ++ [(key, number)] } : LoadRequest).keys.Perm
      (key :: r.keys) := by
    intro number
    simp only [keys, List.map_append, List.map_cons, List.map_nil, ← List.append_assoc]
    exact List.perm_append_singleton key _
  rcases c.requestKey_cases r key with ⟨present, step⟩ | ⟨number, -, flight, step⟩ |
    ⟨-, grounded, step⟩
  all_goals rw [step]
  · refine ⟨⟨fun other member => ?_, stands.waits⟩, ?_⟩
    · rcases List.mem_append.mp member with old | new
      · exact stands.ready other old
      · obtain rfl := List.mem_singleton.mp new
        exact present
    · simp only [keys, List.append_assoc]
      exact List.perm_middle
  · exact ⟨stands.wait flight, last number⟩
  · exact ⟨(stands.start grounded).wait Cache.flight?_start_self, last _⟩

private theorem Stands.requestKeys (stands : r.Stands c) (more : List ResourceKey) :
    (c.requestKeys r more).2.Stands (c.requestKeys r more).1 ∧
      (c.requestKeys r more).2.keys.Perm (r.keys ++ more) := by
  induction more generalizing c r with
  | nil => exact ⟨stands, by rw [List.append_nil]; rfl⟩
  | cons key rest ih =>
    obtain ⟨first, keys⟩ := stands.requestKey key
    obtain ⟨later, all⟩ := ih first
    exact ⟨later, all.trans ((keys.append_right rest).trans List.perm_middle.symm)⟩

end LoadRequest

private theorem Cache.stands_request (c : Cache) (keys : List ResourceKey) :
    (c.request keys).2.Stands (c.request keys).1 ∧
      (c.request keys).2.keys.Perm keys.eraseDups := by
  have empty : ({} : LoadRequest).Stands c := by constructor <;> simp
  exact empty.requestKeys keys.eraseDups

namespace LoggedCache

/-- What events lead to, one after another. -/
def run (h : LoggedCache) (events : List CacheEvent) : LoggedCache := events.foldl step h

/-- Events one after another, each of which can happen where it comes. -/
def Possible : LoggedCache → List CacheEvent → Prop
  | _, [] => True
  | h, event :: rest => event.Allowed h.cache ∧ Possible (h.step event) rest

variable {h : LoggedCache} {front back events : List CacheEvent}

private theorem run_append (h : LoggedCache) (front back : List CacheEvent) :
    h.run (front ++ back) = (h.run front).run back := List.foldl_append

private theorem possible_append_iff :
    h.Possible (front ++ back) ↔ h.Possible front ∧ (h.run front).Possible back := by
  induction front generalizing h with
  | nil => exact ⟨fun later => ⟨trivial, later⟩, And.right⟩
  | cons event rest ih =>
    simp only [List.cons_append, Possible, ih, and_assoc]
    rfl

private theorem Reached.run (reached : Reached h) (possible : h.Possible events) :
    Reached (h.run events) := by
  induction events generalizing h with
  | nil => exact reached
  | cons event rest ih => exact ih (reached.step possible.1) possible.2

section Step

variable {event : CacheEvent}

private theorem Reached.outcome?_step (reached : Reached h) (allowed : event.Allowed h.cache)
    {number : Nat} {outcome : Outcome} (ended : h.cache.outcome? number = some outcome) :
    (h.step event).cache.outcome? number = some outcome := by
  cases event with
  | request keys =>
    have same := (reached.fits.sound.request keys).outcomes
    show (h.cache.request keys).1.outcomes.lookup number = _
    rw [same]
    exact ended
  | finish now load result => exact reached.fits.sound.outcome?_finish allowed ended
  | reset => exact ended

private theorem Reached.running_step (reached : Reached h) (allowed : event.Allowed h.cache)
    {load : Load}
    (running : load ∈ h.cache.running) (goes : ∀ now result, event ≠ .finish now load result) :
    load ∈ (h.step event).cache.running := by
  cases event with
  | request keys =>
    have starts := LoadLog.starts_request reached.fits.sound keys
    show load ∈ (h.cache.request keys).1.running
    rw [starts.frame.1]
    exact List.mem_append_left _ running
  | finish now other result =>
    refine Cache.mem_running_finish.mpr ⟨running, fun same => ?_⟩
    obtain rfl := reached.fits.distinct load running other allowed same
    exact goes now result rfl
  | reset => exact running

private theorem Reached.generation_step (reached : Reached h) (event : CacheEvent) :
    h.cache.generation ≤ (h.step event).cache.generation ∧
      ((h.step event).cache.generation = h.cache.generation ↔ event ≠ .reset) := by
  cases event with
  | request keys =>
    have same := (reached.fits.sound.request keys).generation
    show _ ≤ (h.cache.request keys).1.generation ∧ _
    exact ⟨same.ge, iff_of_true same (by simp)⟩
  | finish now load result =>
    have same : (h.cache.finish now load result).generation = h.cache.generation :=
      Cache.generation_finish.1
    exact ⟨same.ge, iff_of_true same (by simp)⟩
  | reset =>
    have more : (h.step .reset).cache.generation = h.cache.generation + 1 := rfl
    exact ⟨by omega, iff_of_false (by omega) (by simp)⟩

end Step

private theorem Reached.outcome?_run (reached : Reached h) (possible : h.Possible events)
    {number : Nat} {outcome : Outcome} (ended : h.cache.outcome? number = some outcome) :
    (h.run events).cache.outcome? number = some outcome := by
  induction events generalizing h with
  | nil => exact ended
  | cons event rest ih =>
    exact ih (reached.step possible.1) possible.2 (reached.outcome?_step possible.1 ended)

private theorem Reached.running_run (reached : Reached h) (possible : h.Possible events)
    {load : Load}
    (running : load ∈ h.cache.running) (goes : ∀ now result, .finish now load result ∉ events) :
    load ∈ (h.run events).cache.running := by
  induction events generalizing h with
  | nil => exact running
  | cons event rest ih =>
    have next := reached.running_step possible.1 running fun now result same =>
      goes now result (same ▸ List.mem_cons_self)
    exact ih (reached.step possible.1) possible.2 next fun now result later =>
      goes now result (List.mem_cons_of_mem _ later)

private theorem Reached.generation_run (reached : Reached h) (possible : h.Possible events) :
    h.cache.generation ≤ (h.run events).cache.generation ∧
      ((h.run events).cache.generation = h.cache.generation ↔ .reset ∉ events) := by
  induction events generalizing h with
  | nil => exact ⟨Nat.le_refl _, iff_of_true rfl List.not_mem_nil⟩
  | cons event rest ih =>
    obtain ⟨older, first⟩ := reached.generation_step event
    obtain ⟨later, others⟩ := ih (reached.step possible.1) possible.2
    have both : .reset ∉ event :: rest ↔
        (h.step event).cache.generation = h.cache.generation ∧
          ((h.step event).run rest).cache.generation = (h.step event).cache.generation := by
      rw [List.mem_cons, not_or, first, others, ne_comm]
    show _ ≤ ((h.step event).run rest).cache.generation ∧
      (((h.step event).run rest).cache.generation = _ ↔ _)
    rw [both]
    omega

end LoggedCache

/-- What comes of a load in the course of events. It fails; or it ends well, and is discarded if the
cache was reset before. -/
inductive Load.Gives (load : Load) : List CacheEvent → Outcome → Prop
  | failed {front back : List CacheEvent} {now : Nat} {result : Except LoadError Resource}
      {error : LoadError} (bad : LoadEnd.yield ⟨load, now, result⟩ = .error error) :
      Gives load (front ++ .finish now load result :: back) (.error error)
  | discarded {front back : List CacheEvent} {now : Nat} {result : Except LoadError Resource}
      {resource : Resource} (good : LoadEnd.yield ⟨load, now, result⟩ = .ok resource)
      (lost : .reset ∈ front) :
      Gives load (front ++ .finish now load result :: back) (.error .discarded)
  | kept {front back : List CacheEvent} {now : Nat} {result : Except LoadError Resource}
      {resource : Resource} (good : LoadEnd.yield ⟨load, now, result⟩ = .ok resource)
      (whole : .reset ∉ front) :
      Gives load (front ++ .finish now load result :: back) (.ok ())

namespace LoggedCache

variable {h : LoggedCache} {front back events : List CacheEvent} {load : Load} {now : Nat}
  {result : Except LoadError Resource}

private theorem outcome_settle (c : Cache) : (c.settle now load result).2 =
    match LoadEnd.yield ⟨load, now, result⟩ with
    | .error error => .error error
    | .ok _ => if load.generation = c.generation then .ok () else .error .discarded := by
  by_cases present : load.generation = c.generation
  · rw [LoadLog.settle_of_present present]
    cases LoadEnd.yield ⟨load, now, result⟩ <;> simp only [if_pos present]
  · rw [LoadLog.settle_of_past present]
    cases LoadEnd.yield ⟨load, now, result⟩ <;> simp only [if_neg present]

private theorem Reached.outcome?_of_append (reached : Reached h)
    (possible : h.Possible (front ++ .finish now load result :: back)) :
    (h.run (front ++ .finish now load result :: back)).cache.outcome? load.number =
      some ((h.run front).cache.settle now load result).2 := by
  obtain ⟨first, allowed, later⟩ := possible_append_iff.mp possible
  rw [run_append]
  exact ((reached.run first).step allowed).outcome?_run later Cache.outcome?_finish_self

private theorem Reached.current_iff (reached : Reached h) (unfinished : h.log.Unfinished load)
    (possible : h.Possible events) :
    load.generation = (h.run events).cache.generation ↔ .reset ∉ events := by
  rw [(reached.fits.unfinished_iff.mp unfinished).2, eq_comm]
  exact (reached.generation_run possible).2

private theorem Reached.gives_of_outcome? (reached : Reached h) (unfinished : h.log.Unfinished load)
    (possible : h.Possible events) {outcome : Outcome}
    (ended : (h.run events).cache.outcome? load.number = some outcome) :
    load.Gives events outcome := by
  have ends : ∃ now result, .finish now load result ∈ events := by
    by_contra goes
    have running := (reached.fits.unfinished_iff.mp unfinished).1
    have still := reached.running_run possible running fun now result member =>
      goes ⟨now, result, member⟩
    have none := (reached.run possible).fits.sound.unsettled load still
    rw [none] at ended
    cases ended
  -- Only a load that runs ends, so that any end of it in the events is the one that counts.
  obtain ⟨now, result, member⟩ := ends
  obtain ⟨front, back, rfl⟩ := List.append_of_mem member
  have current := reached.current_iff unfinished (possible_append_iff.mp possible).1
  rw [reached.outcome?_of_append possible, outcome_settle] at ended
  cases gave : LoadEnd.yield ⟨load, now, result⟩ with
  | error error =>
    obtain rfl : .error error = outcome := by simpa only [gave, Option.some.injEq] using ended
    exact .failed gave
  | ok resource =>
    by_cases lost : .reset ∈ front
    · have other := (not_congr current).mpr (not_not.mpr lost)
      obtain rfl : .error .discarded = outcome := by
        simpa only [gave, if_neg other, Option.some.injEq] using ended
      exact .discarded gave lost
    · have same := current.mpr lost
      obtain rfl : .ok () = outcome := by
        simpa only [gave, if_pos same, Option.some.injEq] using ended
      exact .kept gave lost

private theorem Reached.outcome?_of_gives (reached : Reached h) (unfinished : h.log.Unfinished load)
    (possible : h.Possible events) {outcome : Outcome} (gives : load.Gives events outcome) :
    (h.run events).cache.outcome? load.number = some outcome := by
  have current : ∀ {front back}, h.Possible (front ++ back) →
      (load.generation = (h.run front).cache.generation ↔ .reset ∉ front) :=
    fun both => reached.current_iff unfinished (possible_append_iff.mp both).1
  cases gives with
  | failed bad => rw [reached.outcome?_of_append possible, outcome_settle, bad]
  | discarded good lost =>
    have other := (not_congr (current possible)).mpr (not_not.mpr lost)
    rw [reached.outcome?_of_append possible, outcome_settle, good]
    simp only [if_neg other]
  | kept good whole =>
    have same := (current possible).mpr whole
    rw [reached.outcome?_of_append possible, outcome_settle, good]
    simp only [if_pos same]

private theorem Reached.outcome?_iff (reached : Reached h) (unfinished : h.log.Unfinished load)
    (possible : h.Possible events) {outcome : Outcome} :
    (h.run events).cache.outcome? load.number = some outcome ↔ load.Gives events outcome :=
  ⟨reached.gives_of_outcome? unfinished possible, reached.outcome?_of_gives unfinished possible⟩

private theorem Reached.isSome_outcome?_iff (reached : Reached h)
    (unfinished : h.log.Unfinished load)
    (possible : h.Possible events) : ((h.run events).cache.outcome? load.number).isSome ↔
      ∃ now result, .finish now load result ∈ events := by
  rw [Option.isSome_iff_exists]
  constructor
  · rintro ⟨outcome, ended⟩
    cases (reached.outcome?_iff unfinished possible).mp ended
    all_goals exact ⟨_, _, List.mem_append_right _ List.mem_cons_self⟩
  · rintro ⟨now, result, member⟩
    obtain ⟨front, back, rfl⟩ := List.append_of_mem member
    exact ⟨_, reached.outcome?_of_append possible⟩

private theorem Reached.contains_of_gives (reached : Reached h) (unfinished : h.log.Unfinished load)
    (possible : h.Possible events) (gives : load.Gives events (.ok ())) :
    ∃ front, front <+: events ∧ (h.run front).cache.contains load.key = true := by
  cases gives with
  | @kept front back now result resource good whole =>
    obtain ⟨first, allowed, -⟩ := possible_append_iff.mp possible
    have current := (reached.current_iff unfinished first).mpr whole
    refine ⟨front ++ [.finish now load result], ⟨back, by simp⟩, ?_⟩
    have here : ((h.run front).cache.finish now load result).get? load.key = _ :=
      LoadLog.get?_finish (reached.run first).fits.sound allowed load.key
    rw [if_pos ⟨rfl, current⟩] at here
    rw [run_append]
    show ((h.run front).cache.finish now load result).contains load.key = true
    rw [Cache.contains, here]
    simp [LoadEnd.loaded?, good]

end LoggedCache

namespace LoadReport

def Says (report : LoadReport) (key : ResourceKey) : Outcome → Prop
  | .ok _ => key ∈ report.loaded
  | .error error => (key, error) ∈ report.failed

end LoadReport

private theorem Cache.Reported.says_iff {c : Cache} {begun report : LoadReport}
    {waits : List (ResourceKey × Nat)} (reported : c.Reported begun waits report)
    {key : ResourceKey} {outcome : Outcome} : report.Says key outcome ↔
      begun.Says key outcome ∨ ∃ w ∈ waits, w.1 = key ∧ c.outcome? w.2 = some outcome := by
  cases outcome with
  | ok _ => exact reported.loaded key
  | error error => exact reported.failed (key, error)

/-- A call that loads keys in the life of a cache: what happens before it, and what happens from
then on. -/
structure LoadCall where
  before : List CacheEvent
  keys : List ResourceKey
  during : List CacheEvent

namespace LoadCall

def events (call : LoadCall) : List CacheEvent :=
  call.before ++ .request call.keys :: call.during

def found (call : LoadCall) : LoggedCache := LoggedCache.run {} call.before

def begun (call : LoadCall) : LoggedCache := call.found.step (.request call.keys)

def request (call : LoadCall) : LoadRequest := (call.found.cache.request call.keys).2

/-- What the call returns in the end, if it does. -/
def report? (call : LoadCall) : Option LoadReport :=
  (call.begun.run call.during).cache.report? call.request

/-- The loads that a call has started or joined: those of its keys that are under way then. -/
def Awaits (call : LoadCall) (load : Load) : Prop :=
  load.key ∈ call.keys ∧ call.begun.log.Unfinished load

variable {call : LoadCall} {key : ResourceKey} {run : List CacheEvent}

private theorem reached_begun (possible : LoggedCache.Possible {} call.events) :
    call.begun.Reached ∧ call.begun.Possible call.during := by
  obtain ⟨before, -, during⟩ := LoggedCache.possible_append_iff.mp possible
  exact ⟨(LoggedCache.Reached.start.run before).step trivial, during⟩

section Request

private theorem mem_keys_request : key ∈ call.request.keys ↔ key ∈ call.keys := by
  have same := (call.found.cache.stands_request call.keys).2
  exact same.mem_iff.trans List.mem_eraseDups

private theorem mem_ready_iff (begun : call.begun.Reached) : key ∈ call.request.ready ↔
    key ∈ call.keys ∧ call.begun.cache.contains key = true := by
  have stands : call.request.Stands call.begun.cache :=
    (call.found.cache.stands_request call.keys).1
  constructor
  · intro ready
    exact ⟨mem_keys_request.mp (List.mem_append_left _ ready), stands.ready key ready⟩
  · rintro ⟨asked, present⟩
    refine (List.mem_append.mp (mem_keys_request.mpr asked)).resolve_right fun waited => ?_
    obtain ⟨w, member, rfl⟩ := List.mem_map.mp waited
    have absent := begun.fits.sound.apart w.1 (by simp [stands.waits w member])
    rw [present] at absent
    cases absent

private theorem mem_waits_iff (begun : call.begun.Reached) {number : Nat} :
    (key, number) ∈ call.request.waits ↔
      ∃ load, call.Awaits load ∧ load.key = key ∧ load.number = number := by
  have stands : call.request.Stands call.begun.cache :=
    (call.found.cache.stands_request call.keys).1
  constructor
  · intro waited
    have asked : key ∈ call.request.keys :=
      List.mem_append_right _ (List.mem_map.mpr ⟨_, waited, rfl⟩)
    obtain ⟨load, unfinished, rfl, own⟩ :=
      begun.fits.flight?_eq_some_iff.mp (stands.waits _ waited)
    exact ⟨load, ⟨mem_keys_request.mp asked, unfinished⟩, rfl, own⟩
  · rintro ⟨load, ⟨asked, unfinished⟩, rfl, rfl⟩
    have flight := begun.fits.flight?_eq_some_iff.mpr ⟨load, unfinished, rfl, rfl⟩
    have absent := begun.fits.sound.apart load.key (by simp [flight])
    have unready : load.key ∉ call.request.ready := by
      intro ready
      rw [((mem_ready_iff begun).mp ready).2] at absent
      cases absent
    have waited := (List.mem_append.mp (mem_keys_request.mpr asked)).resolve_left unready
    obtain ⟨⟨key, number⟩, member, rfl⟩ := List.mem_map.mp waited
    have same := stands.waits _ member
    rw [flight] at same
    rwa [Option.some.inj same]

end Request

section Report

variable {report : LoadReport}

/-- What a report says of a key: that it was loaded when the call began, or what came of the load
that the call waited for. -/
theorem says_iff (begun : call.begun.Reached) (possible : call.begun.Possible call.during)
    (returned : call.report? = some report) {outcome : Outcome} : report.Says key outcome ↔
      (key ∈ call.keys ∧ call.begun.cache.contains key = true ∧ outcome = .ok ()) ∨
      ∃ load, call.Awaits load ∧ load.key = key ∧ load.Gives call.during outcome := by
  have reported := Cache.reported_of_report? returned
  have ready : ({ loaded := call.request.ready } : LoadReport).Says key outcome ↔
      key ∈ call.keys ∧ call.begun.cache.contains key = true ∧ outcome = .ok () := by
    cases outcome with
    | ok _ => simpa [LoadReport.Says] using mem_ready_iff begun
    | error error => simp [LoadReport.Says]
  rw [reported.says_iff, ready]
  refine or_congr_right ⟨?_, ?_⟩
  · rintro ⟨⟨key, number⟩, waited, rfl, ended⟩
    obtain ⟨load, awaits, own, rfl⟩ := (mem_waits_iff begun).mp waited
    exact ⟨load, awaits, own, (begun.outcome?_iff awaits.2 possible).mp ended⟩
  · rintro ⟨load, awaits, own, gives⟩
    refine ⟨(key, load.number), (mem_waits_iff begun).mpr ⟨load, awaits, own, rfl⟩, rfl, ?_⟩
    exact (begun.outcome?_iff awaits.2 possible).mpr gives

private theorem says_iff_of_awaits (begun : call.begun.Reached)
    (possible : call.begun.Possible call.during) (returned : call.report? = some report)
    {load : Load} (awaits : call.Awaits load) {outcome : Outcome} :
    report.Says load.key outcome ↔ load.Gives call.during outcome := by
  rw [says_iff begun possible returned]
  constructor
  · rintro (⟨-, present, -⟩ | ⟨other, awaits', same, gives⟩)
    · have flying := (begun.inStep.flying load.key).mpr ⟨load, awaits.2, rfl⟩
      exact absurd ⟨flying, present⟩ (begun.inStep.apart load.key)
    · rwa [begun.inStep.single load other awaits.2 awaits'.2 same.symm]
  · exact fun gives => .inr ⟨load, awaits, rfl, gives⟩

private theorem isSome_report?_iff (begun : call.begun.Reached)
    (possible : call.begun.Possible call.during) : call.report?.isSome ↔
      ∀ load, call.Awaits load → ∃ now result, .finish now load result ∈ call.during := by
  rw [report?, Cache.isSome_report?_iff]
  constructor
  · intro ended load awaits
    have waited := (mem_waits_iff begun).mpr ⟨load, awaits, rfl, rfl⟩
    exact (begun.isSome_outcome?_iff awaits.2 possible).mp (ended _ waited)
  · rintro ends ⟨key, number⟩ waited
    obtain ⟨load, awaits, -, rfl⟩ := (mem_waits_iff begun).mp waited
    exact (begun.isSome_outcome?_iff awaits.2 possible).mpr (ends load awaits)

end Report

/-- What is true of the report of a call in a run. -/
structure Truthful (run : List CacheEvent) (call : LoadCall) (report : LoadReport) : Prop where
  once : (report.loaded ++ report.failed.map (·.1)).Perm call.keys.eraseDups
  /-- What is told to be loaded was there at some time of the call. -/
  loaded : ∀ key ∈ report.loaded, ∃ front, front <+: call.during ∧
    (call.begun.run front).cache.contains key = true
  /-- What is told to have failed is what came of the load that the call has started or joined. -/
  failed : ∀ p ∈ report.failed, ∃ load, call.Awaits load ∧ load.key = p.1 ∧
    load.Gives call.during (.error p.2)
  /-- Calls that wait for one load are told the same of it. -/
  shared : ∀ other : LoadCall, other.events <+: run → ∀ report', other.report? = some report' →
    ∀ load, call.Awaits load → other.Awaits load →
      ∀ outcome, report.Says load.key outcome ↔ report'.Says load.key outcome
  /-- Whatever else happens, a key is told of in the same way if the same comes of its load. -/
  alone : ∀ during, LoggedCache.Possible {} ({ call with during } : LoadCall).events →
    ∀ report', ({ call with during } : LoadCall).report? = some report' → ∀ key ∈ call.keys,
      (∀ load, call.Awaits load → load.key = key →
        ∀ outcome, load.Gives call.during outcome ↔ load.Gives during outcome) →
      ∀ outcome, report.Says key outcome ↔ report'.Says key outcome

private theorem says_iff_outcome? (possible : LoggedCache.Possible {} run)
    (part : call.events <+: run)
    {report : LoadReport} (returned : call.report? = some report) {load : Load}
    (awaits : call.Awaits load) {outcome : Outcome} : report.Says load.key outcome ↔
      (LoggedCache.run {} run).cache.outcome? load.number = some outcome := by
  obtain ⟨rest, rfl⟩ := part
  obtain ⟨early, later⟩ := LoggedCache.possible_append_iff.mp possible
  obtain ⟨begun, during⟩ := reached_begun early
  -- A call that has returned knows the outcome, which stays what it is from then on.
  have waited := (mem_waits_iff begun).mpr ⟨load, awaits, rfl, rfl⟩
  have complete := (Cache.reported_of_report? returned).ended _ waited
  obtain ⟨known, ended⟩ := Option.isSome_iff_exists.mp complete
  have split : LoggedCache.run {} (call.events ++ rest) =
      (call.begun.run call.during).run rest := by
    rw [LoggedCache.run_append, events, LoggedCache.run_append]
    rfl
  have after : LoggedCache.Possible (call.begun.run call.during) rest := by
    rwa [events, LoggedCache.run_append] at later
  have kept := (begun.run during).outcome?_run after ended
  rw [says_iff_of_awaits begun during returned awaits, ← begun.outcome?_iff awaits.2 during, split,
    ended, kept]

/-- A call for keys, whatever happens around it, returns when the loads that it has started or
joined have ended, and what it tells is true. -/
theorem report_truthful (possible : LoggedCache.Possible {} run) (part : call.events <+: run) :
    (call.report?.isSome ↔
      ∀ load, call.Awaits load → ∃ now result, .finish now load result ∈ call.during) ∧
    ∀ report, call.report? = some report → Truthful run call report := by
  have own : LoggedCache.Possible {} call.events := by
    obtain ⟨rest, rfl⟩ := part
    exact (LoggedCache.possible_append_iff.mp possible).1
  obtain ⟨begun, during⟩ := reached_begun own
  refine ⟨isSome_report?_iff begun during, fun report returned => ⟨?_, ?_, ?_, ?_, ?_⟩⟩
  · have told := (Cache.reported_of_report? returned).keys
    have ready : ({ loaded := call.request.ready } : LoadReport).keys = call.request.ready := by
      simp [LoadReport.keys]
    rw [ready] at told
    exact told.trans (call.found.cache.stands_request call.keys).2
  · intro key told
    have given : report.Says key (.ok ()) := told
    rcases (says_iff begun during returned).mp given with
      ⟨-, present, -⟩ | ⟨load, awaits, rfl, gives⟩
    · exact ⟨[], List.nil_prefix, present⟩
    · exact begun.contains_of_gives awaits.2 during gives
  · rintro ⟨key, error⟩ told
    have given : report.Says key (.error error) := told
    rcases (says_iff begun during returned).mp given with ⟨-, -, well⟩ | failed
    · cases well
    · exact failed
  · intro other part' report' returned' load awaits awaits' outcome
    rw [says_iff_outcome? possible part returned awaits,
      says_iff_outcome? possible part' returned' awaits']
  · intro during' possible' report' returned' key _ same outcome
    obtain ⟨-, course⟩ := reached_begun possible'
    have other : report'.Says key outcome ↔ _ :=
      @says_iff { call with during := during' } _ _ begun course returned' outcome
    rw [says_iff begun during returned, other]
    refine or_congr_right (exists_congr fun load => and_congr_right fun awaits => ?_)
    exact and_congr_right fun own => same load awaits own outcome

/-! A call that finds a theme loaded and joins the load of a grammar. The cache is reset before that
load ends, so that the grammar is discarded. -/

namespace Joined

open LoggedCache (lateTheme lateGrammar lateResource)

def grammarLoad : Load := ⟨1, lateGrammar, 0⟩

def joined : LoadCall where
  before :=
    [.request [lateTheme], .finish 3 ⟨0, lateTheme, 0⟩ (.ok lateResource), .request [lateGrammar]]
  keys := [lateTheme, lateGrammar, lateTheme]
  during := [.reset, .finish 8 grammarLoad (.ok (.grammar ⟨.rust, fun _ => []⟩))]

private theorem possible_joined : LoggedCache.Possible {} joined.events :=
  ⟨trivial, List.mem_cons_self, trivial, trivial, trivial, List.mem_cons_self, trivial⟩

theorem report_truthful_joined : LoggedCache.Possible {} joined.events ∧
    joined.Awaits grammarLoad ∧
    joined.report? = some { loaded := [lateTheme], failed := [(lateGrammar, .discarded)] } ∧
    Truthful joined.events joined
      { loaded := [lateTheme], failed := [(lateGrammar, .discarded)] } := by
  have returned : joined.report? =
      some { loaded := [lateTheme], failed := [(lateGrammar, .discarded)] } := rfl
  have log : joined.begun.log =
      { started := [⟨0, lateTheme, 0⟩, grammarLoad],
        ended := [⟨⟨0, lateTheme, 0⟩, 3, .ok lateResource⟩] } := rfl
  have unfinished : joined.begun.log.Unfinished grammarLoad := by
    rw [log]
    refine ⟨List.mem_cons_of_mem _ List.mem_cons_self, fun e member => ?_⟩
    obtain rfl := List.mem_singleton.mp member
    decide
  exact ⟨possible_joined, ⟨List.mem_cons_of_mem _ List.mem_cons_self, unfinished⟩, returned,
    (report_truthful possible_joined List.prefix_rfl).2 _ returned⟩

end Joined

end LoadCall

end CodeTint
