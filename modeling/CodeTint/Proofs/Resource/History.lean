import CodeTint.Proofs.Resource.Cache
import Mathlib.Data.List.Find

/-!
A cache and the history of its loads. Requests for any keys, ends of loads and resets follow one
another in any order; a log keeps which loads were started since the last reset, and how loads
ended. Main statement: the tables of the cache say what has become of these loads, key by key, and
of no others.
-/

set_option autoImplicit false
set_option relaxedAutoImplicit false

namespace CodeTint

/-- What happens to a cache. -/
inductive CacheEvent where
  | request (keys : List ResourceKey)
  | finish (now : Nat) (load : Load) (result : Except LoadError Resource)
  | reset

/-- Only loads that run end. -/
def CacheEvent.Allowed (c : Cache) : CacheEvent → Prop
  | .finish _ load _ => load ∈ c.running
  | _ => True

/-- The cache after an event. -/
def Cache.after (c : Cache) : CacheEvent → Cache
  | .request keys => (c.request keys).1
  | .finish now load result => c.finish now load result
  | .reset => c.reset

/-- The end of a load. -/
structure LoadEnd where
  load : Load
  time : Nat
  result : Except LoadError Resource

namespace LoadEnd

/-- What a load gave. A resource of another kind than the key is a failure. -/
def yield (e : LoadEnd) : Except LoadError Resource :=
  match e.result with
  | .error error => .error error
  | .ok resource =>
    if resource.kind = e.load.key.kind then .ok resource
    else .error (.wrongKind resource.kind e.load.key)

/-- What a load leaves in the cache if it ended well. -/
def loaded? (e : LoadEnd) : Option Loaded :=
  match e.yield with
  | .ok resource => some ⟨resource, e.time⟩
  | .error _ => none

def failure? (e : LoadEnd) : Option LoadFailure :=
  match e.yield with
  | .ok _ => none
  | .error error => some ⟨e.time, error⟩

private theorem loaded?_eq_some {e : LoadEnd} {entry : Loaded} (h : e.loaded? = some entry) :
    e.result = .ok entry.resource ∧ e.time = entry.loadedAt ∧
      entry.resource.kind = e.load.key.kind ∧ e.failure? = none := by
  simp only [loaded?, failure?, yield] at h ⊢
  cases given : e.result with
  | error error => simp [given] at h
  | ok resource =>
    by_cases kind : resource.kind = e.load.key.kind
    · simp only [given, kind, if_true, Option.some.injEq] at h ⊢
      subst h
      exact ⟨rfl, rfl, kind, trivial⟩
    · simp [given, kind] at h

end LoadEnd

/-- What has become of the loads of a cache. -/
structure LoadLog where
  started : List Load := []
  ended : List LoadEnd := []

namespace LoadLog

/-- The log after an event: loads are started that run and did not run before. -/
def note (log : LoadLog) (c : Cache) : CacheEvent → LoadLog
  | .request keys =>
    { log with started := log.started ++ (c.request keys).1.running.filter (· ∉ c.running) }
  | .finish now load result => { log with ended := ⟨load, now, result⟩ :: log.ended }
  | .reset => { log with started := [] }

/-- A load was started since the last reset and has not ended. -/
def Unfinished (log : LoadLog) (load : Load) : Prop :=
  load ∈ log.started ∧ ∀ e ∈ log.ended, e.load ≠ load

/-- How a load of a key ended last, among those that were started since the last reset. -/
def lastEnd? (log : LoadLog) (key : ResourceKey) : Option LoadEnd :=
  log.ended.find? fun e => e.load.key = key && e.load ∈ log.started

private theorem lastEnd?_eq_some {log : LoadLog} {key : ResourceKey} {e : LoadEnd}
    (h : log.lastEnd? key = some e) : e ∈ log.ended ∧ e.load.key = key ∧ e.load ∈ log.started := by
  have chosen := List.find?_some h
  simp only [Bool.and_eq_true, decide_eq_true_eq] at chosen
  exact ⟨List.mem_of_find?_eq_some h, chosen.1, chosen.2⟩

/-- The log of a cache: its tables are those of the loads that were started since the last
reset. -/
structure Fits (log : LoadLog) (c : Cache) : Prop where
  sound : c.Sound
  /-- No load was started after more resets than there were. -/
  bounded : ∀ load ∈ c.running, load.generation ≤ c.generation
  distinct : ∀ a ∈ c.running, ∀ b ∈ c.running, a.number = b.number → a = b
  present : ∀ load ∈ log.started, load.generation = c.generation
  logged : ∀ load ∈ c.running, load.generation = c.generation → load ∈ log.started
  unended : ∀ load ∈ log.started, (∀ e ∈ log.ended, e.load ≠ load) → load ∈ c.running
  past : ∀ e ∈ log.ended, e.load ∉ c.running ∧ e.load.number < c.loadCount
  flights : ∀ key number, c.flight? key = some number →
    ∃ load ∈ c.running, load.generation = c.generation ∧ load.key = key ∧ load.number = number
  loaded : ∀ key, c.get? key = (log.lastEnd? key).bind LoadEnd.loaded?
  failures : ∀ key, c.failure? key = (log.lastEnd? key).bind LoadEnd.failure?

variable {log : LoadLog} {c : Cache}

theorem fits_empty : ({} : LoadLog).Fits {} := by
  refine ⟨Cache.sound_empty, ?_, ?_, ?_, ?_, ?_, ?_, ?_, ?_, ?_⟩ <;>
    simp [Cache.flight?, Cache.get?, Cache.failure?, lastEnd?]

theorem Fits.unfinished_iff (fits : log.Fits c) {load : Load} :
    log.Unfinished load ↔ load ∈ c.running ∧ load.generation = c.generation := by
  constructor
  · rintro ⟨started, unended⟩
    exact ⟨fits.unended load started unended, fits.present load started⟩
  · rintro ⟨running, present⟩
    refine ⟨fits.logged load running present, fun e member same => ?_⟩
    exact (fits.past e member).1 (same ▸ running)

theorem Fits.flight?_eq_some_iff (fits : log.Fits c) {key : ResourceKey} {number : Nat} :
    c.flight? key = some number ↔
      ∃ load, log.Unfinished load ∧ load.key = key ∧ load.number = number := by
  constructor
  · intro flight
    obtain ⟨load, running, present, own, same⟩ := fits.flights key number flight
    exact ⟨load, fits.unfinished_iff.mpr ⟨running, present⟩, own, same⟩
  · rintro ⟨load, unfinished, rfl, rfl⟩
    obtain ⟨running, present⟩ := fits.unfinished_iff.mp unfinished
    exact fits.sound.flying load running present

section Start

variable {key : ResourceKey}

/-- The load that is started next. -/
def next (c : Cache) (key : ResourceKey) : Load := ⟨c.loadCount, key, c.generation⟩

private theorem lastEnd?_started {new : List Load} (unended : ∀ e ∈ log.ended, e.load ∉ new) :
    ({ log with started := log.started ++ new } : LoadLog).lastEnd? key = log.lastEnd? key := by
  refine List.find?_congr fun e member => ?_
  simp [unended e member]

private theorem Fits.start (fits : log.Fits c) (unloaded : c.contains key = false)
    (grounded : c.flight? key = none) :
    ({ log with started := log.started ++ [next c key] } : LoadLog).Fits (c.start key) := by
  have fresh : ∀ load ∈ c.running, load.number ≠ c.loadCount :=
    fun load running => Nat.ne_of_lt (fits.sound.numbered load running)
  have running : ∀ load, load ∈ (c.start key).running ↔ load ∈ c.running ∨ load = next c key := by
    intro load
    simp [Cache.start, next]
  have ends : ∀ other, ({ log with started := log.started ++ [next c key] } : LoadLog).lastEnd?
      other = log.lastEnd? other := by
    intro other
    refine lastEnd?_started fun e member same => ?_
    have number := (fits.past e member).2
    rw [List.mem_singleton.mp same] at number
    exact Nat.lt_irrefl _ number
  refine ⟨fits.sound.start unloaded grounded, ?_, ?_, ?_, ?_, ?_, ?_, ?_, ?_, ?_⟩
  · intro load member
    rcases (running load).mp member with old | rfl
    · exact fits.bounded load old
    · exact Nat.le_refl _
  · intro a first b second same
    rcases (running a).mp first with old | rfl <;> rcases (running b).mp second with old' | rfl
    · exact fits.distinct a old b old' same
    · exact absurd same (fresh a old)
    · exact absurd same.symm (fresh b old')
    · rfl
  · intro load member
    rcases List.mem_append.mp member with old | new
    · exact fits.present load old
    · obtain rfl := List.mem_singleton.mp new
      rfl
  · intro load member present
    rcases (running load).mp member with old | rfl
    · exact List.mem_append_left _ (fits.logged load old present)
    · exact List.mem_append_right _ List.mem_cons_self
  · intro load member unended
    rcases List.mem_append.mp member with old | new
    · exact (running load).mpr (.inl (fits.unended load old unended))
    · exact (running load).mpr (.inr (List.mem_singleton.mp new))
  · intro e member
    obtain ⟨idle, number⟩ := fits.past e member
    refine ⟨fun runs => ?_, Nat.lt_succ_of_lt number⟩
    rcases (running e.load).mp runs with old | same
    · exact idle old
    · rw [same] at number
      exact Nat.lt_irrefl _ number
  · intro other number flight
    by_cases same : other = key
    · subst same
      rw [Cache.flight?_start_self] at flight
      exact ⟨next c other, (running _).mpr (.inr rfl), rfl, rfl, Option.some.inj flight⟩
    · rw [Cache.flight?_start_of_ne same] at flight
      obtain ⟨load, member, rest⟩ := fits.flights other number flight
      exact ⟨load, (running load).mpr (.inl member), rest⟩
  · intro other
    rw [ends]
    exact fits.loaded other
  · intro other
    rw [ends]
    exact fits.failures other

end Start

section Request

/-- From one cache to another by starting loads of keys that are neither loaded nor in flight. -/
inductive Starts (c : Cache) : List Load → Cache → Prop
  | none : Starts c [] c
  | more {new : List Load} {c' : Cache} {key : ResourceKey} (starts : Starts c new c')
      (unloaded : c'.contains key = false) (grounded : c'.flight? key = none) :
      Starts c (new ++ [next c' key]) (c'.start key)

private theorem status_eq_unloaded_iff {key : ResourceKey} :
    c.status key = .unloaded ↔ c.contains key = false ∧ c.flight? key = none := by
  cases present : c.contains key <;> cases flight : c.flight? key <;>
    simp [Cache.status, present, flight]

private theorem status_start {key other : ResourceKey} (known : c.status other ≠ .unloaded) :
    (c.start key).status other ≠ .unloaded := by
  intro lost
  obtain ⟨unloaded, grounded⟩ := status_eq_unloaded_iff.mp lost
  have different : other ≠ key := by
    rintro rfl
    rw [Cache.flight?_start_self] at grounded
    cases grounded
  rw [Cache.flight?_start_of_ne different] at grounded
  exact known (status_eq_unloaded_iff.mpr ⟨unloaded, grounded⟩)

private theorem status_requestKey (c : Cache) (r : LoadRequest) (key : ResourceKey) :
    (c.requestKey r key).1.status key ≠ .unloaded := by
  rw [Ne, status_eq_unloaded_iff]
  rcases c.requestKey_cases r key with ⟨present, step⟩ | ⟨number, -, flight, step⟩ | ⟨-, -, step⟩
  · simp [step, present]
  · simp [step, flight]
  · simp [step, Cache.flight?_start_self]

private theorem Starts.trans {c' c'' : Cache} {new more : List Load} (first : Starts c new c')
    (second : Starts c' more c'') : Starts c (new ++ more) c'' := by
  induction second with
  | none => simpa using first
  | more _ unloaded grounded ih =>
    rw [← List.append_assoc]
    exact .more ih unloaded grounded

private theorem starts_requestKeys (c : Cache) (r : LoadRequest) (keys : List ResourceKey) :
    ∃ new, Starts c new (c.requestKeys r keys).1 := by
  induction keys generalizing c r with
  | nil => exact ⟨[], .none⟩
  | cons key rest ih =>
    obtain ⟨later, after⟩ := ih (c.requestKey r key).1 (c.requestKey r key).2
    have first : ∃ new, Starts c new (c.requestKey r key).1 := by
      rcases c.requestKey_cases r key with ⟨-, step⟩ | ⟨number, -, -, step⟩ |
        ⟨unloaded, grounded, step⟩
      all_goals rw [step]
      · exact ⟨[], .none⟩
      · exact ⟨[], .none⟩
      · exact ⟨_, Starts.none.more unloaded grounded⟩
    obtain ⟨new, before⟩ := first
    exact ⟨new ++ later, before.trans after⟩

private theorem Starts.status {new : List Load} {c' : Cache} {key : ResourceKey}
    (starts : Starts c new c')
    (known : c.status key ≠ .unloaded) : c'.status key ≠ .unloaded := by
  induction starts with
  | none => exact known
  | more _ _ _ ih => exact status_start ih

private theorem status_requestKeys (c : Cache) (r : LoadRequest) {keys : List ResourceKey}
    {key : ResourceKey} (member : key ∈ keys) :
    (c.requestKeys r keys).1.status key ≠ .unloaded := by
  induction keys generalizing c r with
  | nil => exact absurd member List.not_mem_nil
  | cons first rest ih =>
    rcases List.mem_cons.mp member with rfl | later
    · obtain ⟨new, starts⟩ := starts_requestKeys (c.requestKey r key).1 (c.requestKey r key).2 rest
      exact starts.status (status_requestKey c r key)
    · exact ih _ _ later

private theorem status_request {keys : List ResourceKey} {key : ResourceKey} (member : key ∈ keys) :
    (c.request keys).1.status key ≠ .unloaded :=
  status_requestKeys c {} (List.mem_eraseDups.mpr member)

theorem Starts.frame {new : List Load} {c' : Cache} (starts : Starts c new c') :
    c'.running = c.running ++ new ∧ c'.loaded = c.loaded ∧ c.loadCount ≤ c'.loadCount ∧
      ∀ load ∈ new, c.loadCount ≤ load.number ∧ c.contains load.key = false := by
  induction starts with
  | none => simp
  | @more new c' key _ unloaded _ ih =>
    obtain ⟨running, loaded, count, fresh⟩ := ih
    refine ⟨by simp [Cache.start, running, next], loaded, Nat.le_succ_of_le count, ?_⟩
    intro load member
    rcases List.mem_append.mp member with old | last
    · exact fresh load old
    · obtain rfl := List.mem_singleton.mp last
      refine ⟨count, ?_⟩
      rwa [Cache.contains, Cache.get?, ← loaded]

private theorem Fits.starts (fits : log.Fits c) {new : List Load} {c' : Cache}
    (starts : Starts c new c') :
    ({ log with started := log.started ++ new } : LoadLog).Fits c' := by
  induction starts with
  | none => simpa using fits
  | more _ unloaded grounded ih =>
    rw [← List.append_assoc]
    exact ih.start unloaded grounded

theorem starts_request (sound : c.Sound) (keys : List ResourceKey) :
    Starts c ((c.request keys).1.running.filter (· ∉ c.running)) (c.request keys).1 := by
  obtain ⟨new, starts⟩ := starts_requestKeys c {} keys.eraseDups
  have same : (c.request keys).1.running.filter (· ∉ c.running) = new := by
    obtain ⟨running, -, -, fresh⟩ := starts.frame
    rw [Cache.request, running, List.filter_append]
    have old : c.running.filter (· ∉ c.running) = [] := by simp
    have kept : new.filter (· ∉ c.running) = new := by
      refine List.filter_eq_self.mpr fun load member => decide_eq_true fun runs => ?_
      exact absurd (sound.numbered load runs) (Nat.not_lt.mpr (fresh load member).1)
    rw [old, kept, List.nil_append]
  rw [same]
  exact starts

end Request

section Finish

variable {now : Nat} {load : Load} {result : Except LoadError Resource}

theorem settle_of_present (present : load.generation = c.generation) :
    c.settle now load result =
      match (LoadEnd.mk load now result).yield with
      | .ok resource => (c.keep now load.key resource, .ok ())
      | .error error => (c.fail now load.key error, .error error) := by
  cases result with
  | error error => simp [Cache.settle, LoadEnd.yield, present]
  | ok resource =>
    by_cases kind : resource.kind = load.key.kind <;>
      simp [Cache.settle, LoadEnd.yield, present, kind]

theorem settle_of_past (past : load.generation ≠ c.generation) :
    c.settle now load result =
      match (LoadEnd.mk load now result).yield with
      | .ok _ => (c, .error .discarded)
      | .error error => (c, .error error) := by
  have other : c.generation ≠ load.generation := past.symm
  cases result with
  | error error => simp [Cache.settle, LoadEnd.yield, other]
  | ok resource =>
    by_cases kind : resource.kind = load.key.kind <;>
      simp [Cache.settle, LoadEnd.yield, other, kind]

theorem get?_finish (sound : c.Sound) (running : load ∈ c.running) (key : ResourceKey) :
    (c.finish now load result).get? key =
      if load.key = key ∧ load.generation = c.generation then
        (LoadEnd.mk load now result).loaded?
      else c.get? key := by
  show (c.settle now load result).1.loaded.lookup key = _
  by_cases present : load.generation = c.generation
  · rw [settle_of_present present]
    have flight := sound.flying load running present
    have unloaded : c.get? load.key = none := by
      simpa [Cache.contains] using sound.apart load.key (by simp [flight])
    by_cases same : load.key = key
    · subst same
      rw [if_pos ⟨rfl, present⟩, LoadEnd.loaded?]
      cases (LoadEnd.mk load now result).yield with
      | ok resource => simp [Cache.keep]
      | error error => exact unloaded
    · rw [if_neg fun both => same both.1]
      cases (LoadEnd.mk load now result).yield with
      | ok resource => exact Cache.get?_keep_of_ne (Ne.symm same)
      | error error => rfl
  · rw [settle_of_past present, if_neg fun both => present both.2]
    cases (LoadEnd.mk load now result).yield <;> rfl

private theorem failure?_finish (key : ResourceKey) :
    (c.finish now load result).failure? key =
      if load.key = key ∧ load.generation = c.generation then
        (LoadEnd.mk load now result).failure?
      else c.failure? key := by
  show (c.settle now load result).1.failures.lookup key = _
  by_cases present : load.generation = c.generation
  · rw [settle_of_present present]
    by_cases same : load.key = key
    · subst same
      rw [if_pos ⟨rfl, present⟩, LoadEnd.failure?]
      cases (LoadEnd.mk load now result).yield with
      | ok resource => exact Cache.lookup_without_self
      | error error => simp [Cache.fail]
    · have skipped : (key == load.key) = false := by simpa using Ne.symm same
      rw [if_neg fun both => same both.1]
      cases (LoadEnd.mk load now result).yield with
      | ok resource => exact Cache.lookup_without_of_ne (Ne.symm same)
      | error error =>
        simp [Cache.fail, Cache.failure?, List.lookup_cons, skipped,
          Cache.lookup_without_of_ne (Ne.symm same)]
  · rw [settle_of_past present, if_neg fun both => present both.2]
    cases (LoadEnd.mk load now result).yield <;> rfl

private theorem Fits.finish (fits : log.Fits c) (running : load ∈ c.running) :
    ({ log with ended := ⟨load, now, result⟩ :: log.ended } : LoadLog).Fits
      (c.finish now load result) := by
  obtain ⟨generation, count⟩ : (c.finish now load result).generation = c.generation ∧
      (c.finish now load result).loadCount = c.loadCount := Cache.generation_finish
  have runs : ∀ other, other ∈ (c.finish now load result).running ↔
      other ∈ c.running ∧ other ≠ load := by
    intro other
    rw [Cache.mem_running_finish]
    refine and_congr_right fun member => not_congr ⟨fun same => ?_, congrArg Load.number⟩
    exact fits.distinct other member load running same
  have started : load ∈ log.started ↔ load.generation = c.generation :=
    ⟨fits.present load, fits.logged load running⟩
  have ends : ∀ key, ({ log with ended := ⟨load, now, result⟩ :: log.ended } : LoadLog).lastEnd?
      key = if load.key = key ∧ load.generation = c.generation then some ⟨load, now, result⟩
        else log.lastEnd? key := by
    intro key
    simp only [lastEnd?, List.find?_cons, ← started]
    by_cases own : load.key = key ∧ load ∈ log.started
    · rw [if_pos own]
      simp [own.1, own.2]
    · have passed : (decide (load.key = key) && decide (load ∈ log.started)) = false := by
        simpa using own
      rw [if_neg own, passed]
  refine ⟨fits.sound.finish running, ?_, ?_, ?_, ?_, ?_, ?_, ?_, ?_, ?_⟩
  · intro other member
    rw [generation]
    exact fits.bounded other ((runs other).mp member).1
  · intro a first b second
    exact fits.distinct a ((runs a).mp first).1 b ((runs b).mp second).1
  · intro other member
    rw [generation]
    exact fits.present other member
  · intro other member present
    rw [generation] at present
    exact fits.logged other ((runs other).mp member).1 present
  · intro other member unended
    refine (runs other).mpr ⟨fits.unended other member fun e old => ?_, fun same => ?_⟩
    · exact unended e (List.mem_cons_of_mem _ old)
    · exact unended _ List.mem_cons_self same.symm
  · intro e member
    rw [count]
    rcases List.mem_cons.mp member with rfl | old
    · exact ⟨fun still => ((runs load).mp still).2 rfl, fits.sound.numbered load running⟩
    · obtain ⟨idle, number⟩ := fits.past e old
      exact ⟨fun still => idle ((runs e.load).mp still).1, number⟩
  · intro key number flight
    rw [generation]
    by_cases own : load.generation = c.generation ∧ key = load.key
    · rw [own.2, Cache.flight?_finish_self own.1.symm] at flight
      cases flight
    · have old : c.flight? key = some number := by
        by_cases present : load.generation = c.generation
        · rwa [Cache.flight?_finish_of_ne fun same => own ⟨present, same⟩] at flight
        · rwa [(Cache.finish_of_discarded (Ne.symm present) key).1] at flight
      obtain ⟨other, member, present, same, numbered⟩ := fits.flights key number old
      refine ⟨other, (runs other).mpr ⟨member, ?_⟩, present, same, numbered⟩
      rintro rfl
      exact own ⟨present, same.symm⟩
  · intro key
    rw [ends, get?_finish fits.sound running]
    split
    · rfl
    · exact fits.loaded key
  · intro key
    rw [ends, failure?_finish]
    split
    · rfl
    · exact fits.failures key

end Finish

private theorem Fits.reset (fits : log.Fits c) :
    ({ log with started := [] } : LoadLog).Fits c.reset := by
  have older : ∀ load ∈ c.running, load.generation ≠ c.reset.generation :=
    fun load running => Nat.ne_of_lt (Nat.lt_succ_of_le (fits.bounded load running))
  have ends : ∀ key, ({ log with started := [] } : LoadLog).lastEnd? key = none := by
    intro key
    simp [lastEnd?]
  refine ⟨⟨fits.sound.numbered, fits.sound.settled, fits.sound.unsettled, ?_, ?_, List.nodup_nil⟩,
    ?_, fits.distinct, ?_, ?_, ?_, fits.past, ?_, ?_, ?_⟩
  · exact fun load running present => absurd present (older load running)
  · intro key flight
    cases flight
  · exact fun load running => Nat.le_succ_of_le (fits.bounded load running)
  · exact fun load member => absurd member List.not_mem_nil
  · exact fun load running present => absurd present (older load running)
  · exact fun load member => absurd member List.not_mem_nil
  · intro key number flight
    cases flight
  · intro key
    rw [ends]
    rfl
  · intro key
    rw [ends]
    rfl

theorem Fits.note (fits : log.Fits c) {event : CacheEvent} (allowed : event.Allowed c) :
    (log.note c event).Fits (c.after event) := by
  cases event with
  | request keys => exact fits.starts (starts_request fits.sound keys)
  | finish now load result => exact fits.finish allowed
  | reset => exact fits.reset

end LoadLog

/-- A cache with the log of its loads. -/
structure LoggedCache where
  cache : Cache := {}
  log : LoadLog := {}

namespace LoggedCache

def step (h : LoggedCache) (event : CacheEvent) : LoggedCache :=
  ⟨h.cache.after event, h.log.note h.cache event⟩

/-- What a new cache comes to by events in any order. -/
inductive Reached : LoggedCache → Prop
  | start : Reached {}
  | step {h : LoggedCache} (reached : Reached h) {event : CacheEvent}
      (allowed : event.Allowed h.cache) : Reached (h.step event)

/-- What a cache comes to by events none of which is a reset. -/
inductive Continues (h : LoggedCache) : LoggedCache → Prop
  | refl : Continues h h
  | step {h' : LoggedCache} (continues : Continues h h') {event : CacheEvent}
      (allowed : event.Allowed h'.cache) (kept : event ≠ .reset) : Continues h (h'.step event)

/-- The tables of a cache are in step with the loads that were started since the last reset. -/
structure InStep (h : LoggedCache) : Prop where
  single : ∀ a b, h.log.Unfinished a → h.log.Unfinished b → a.key = b.key → a = b
  flying : ∀ key, (h.cache.flight? key).isSome ↔ ∃ load, h.log.Unfinished load ∧ load.key = key
  apart : ∀ key, ¬((h.cache.flight? key).isSome ∧ h.cache.contains key)
  clean : ∀ key entry, h.cache.get? key = some entry → h.cache.failure? key = none
  /-- What is known of a key is how the load of it that ended last has ended. -/
  latest : ∀ key, h.cache.get? key = (h.log.lastEnd? key).bind LoadEnd.loaded? ∧
    h.cache.failure? key = (h.log.lastEnd? key).bind LoadEnd.failure?
  /-- What is loaded under a key was given by a load of it, is of its kind, and has the time when
  this load ended. -/
  given : ∀ key entry, h.cache.get? key = some entry → ∃ e ∈ h.log.ended,
    e.load ∈ h.log.started ∧ e.load.key = key ∧ e.result = .ok entry.resource ∧
      e.time = entry.loadedAt ∧ entry.resource.kind = key.kind

variable {h : LoggedCache}

theorem Reached.fits (reached : Reached h) : h.log.Fits h.cache := by
  induction reached with
  | start => exact LoadLog.fits_empty
  | step _ allowed ih => exact ih.note allowed

theorem Reached.inStep (reached : Reached h) : h.InStep := by
  have fits := reached.fits
  refine ⟨?_, ?_, ?_, ?_, fun key => ⟨fits.loaded key, fits.failures key⟩, ?_⟩
  · intro a b first second same
    obtain ⟨running, present⟩ := fits.unfinished_iff.mp first
    obtain ⟨running', present'⟩ := fits.unfinished_iff.mp second
    have flight := fits.sound.flying a running present
    rw [same, fits.sound.flying b running' present'] at flight
    exact fits.distinct a running b running' (Option.some.inj flight).symm
  · intro key
    rw [Option.isSome_iff_exists]
    constructor
    · rintro ⟨number, flight⟩
      obtain ⟨load, unfinished, own, -⟩ := fits.flight?_eq_some_iff.mp flight
      exact ⟨load, unfinished, own⟩
    · rintro ⟨load, unfinished, own⟩
      exact ⟨load.number, fits.flight?_eq_some_iff.mpr ⟨load, unfinished, own, rfl⟩⟩
  · rintro key ⟨flight, contains⟩
    rw [fits.sound.apart key flight] at contains
    cases contains
  · intro key entry present
    rw [fits.loaded] at present
    obtain ⟨e, last, kept⟩ := Option.bind_eq_some_iff.mp present
    rw [fits.failures, last]
    exact (LoadEnd.loaded?_eq_some kept).2.2.2
  · intro key entry present
    rw [fits.loaded] at present
    obtain ⟨e, last, kept⟩ := Option.bind_eq_some_iff.mp present
    obtain ⟨member, own, started⟩ := LoadLog.lastEnd?_eq_some last
    obtain ⟨result, time, kind, -⟩ := LoadEnd.loaded?_eq_some kept
    exact ⟨e, member, started, own, result, time, own ▸ kind⟩

private theorem get?_step (fits : h.log.Fits h.cache) {event : CacheEvent}
    (allowed : event.Allowed h.cache) (kept : event ≠ .reset) {key : ResourceKey} {entry : Loaded}
    (present : h.cache.get? key = some entry) :
    (h.step event).cache.get? key = some entry ∧
      ∀ load ∈ (h.step event).log.started, load.key = key → load ∈ h.log.started := by
  have contains : h.cache.contains key = true := by simp [Cache.contains, present]
  cases event with
  | request keys =>
    obtain ⟨-, loaded, -, fresh⟩ := (LoadLog.starts_request fits.sound keys).frame
    refine ⟨?_, fun load member own => ?_⟩
    · show (h.cache.request keys).1.loaded.lookup key = _
      rw [loaded]
      exact present
    · rcases List.mem_append.mp member with old | new
      · exact old
      · have unloaded := (fresh load new).2
        rw [own, contains] at unloaded
        cases unloaded
  | finish now load result =>
    refine ⟨?_, fun _ member _ => member⟩
    show (h.cache.finish now load result).get? key = _
    rw [LoadLog.get?_finish fits.sound allowed, if_neg, present]
    rintro ⟨rfl, current⟩
    have flight := fits.sound.flying load allowed current
    rw [fits.sound.apart load.key (by simp [flight])] at contains
    cases contains
  | reset => exact absurd rfl kept

private theorem Continues.get? (reached : Reached h) {h' : LoggedCache} (continues : h.Continues h')
    {key : ResourceKey} {entry : Loaded} (present : h.cache.get? key = some entry) :
    Reached h' ∧ h'.cache.get? key = some entry ∧
      ∀ load ∈ h'.log.started, load.key = key → load ∈ h.log.started := by
  induction continues with
  | refl => exact ⟨reached, present, fun _ member _ => member⟩
  | step _ allowed kept ih =>
    obtain ⟨before, still, old⟩ := ih
    obtain ⟨next, same⟩ := get?_step before.fits allowed kept still
    exact ⟨before.step allowed, next, fun load member own => old load (same load member own) own⟩

/-- Whatever the order of requests, ends of loads and resets, the tables of a cache are in step
with the loads that were started since the last reset; a request leaves each of its keys loaded or
in flight; and what is loaded stays what it is and is not loaded again before the next reset. -/
theorem tables_in_step (reached : Reached h) :
    h.InStep ∧
    (∀ keys, ∀ key ∈ keys, (h.step (.request keys)).cache.status key ≠ .unloaded) ∧
    ∀ h', h.Continues h' → ∀ key entry, h.cache.get? key = some entry →
      h'.cache.get? key = some entry ∧
        ∀ load ∈ h'.log.started, load.key = key → load ∈ h.log.started :=
  ⟨reached.inStep, fun _ _ => LoadLog.status_request,
    fun _ continues _ _ present => (continues.get? reached present).2⟩

/-! A theme is asked for before a reset and again after it, together with a grammar. The first load
ends well, too late; then the second one does. The grammar is still being loaded. -/

def lateTheme : ResourceKey := ⟨.theme, "dusk"⟩

def lateGrammar : ResourceKey := ⟨.grammar, "rust"⟩

def lateResource : Resource := .theme ⟨"dusk", "Dusk", .dark, none, none, []⟩

/-- The cache in the end, with the log of its loads. -/
def late : LoggedCache where
  cache :=
    { loaded := [(lateTheme, ⟨lateResource, 7⟩)]
      inFlight := [(lateGrammar, 2)]
      generation := 1
      loadCount := 3
      running := [⟨2, lateGrammar, 1⟩]
      outcomes := [(1, .ok ()), (0, .error .discarded)] }
  log :=
    { started := [⟨1, lateTheme, 1⟩, ⟨2, lateGrammar, 1⟩]
      ended :=
        [⟨⟨1, lateTheme, 1⟩, 7, .ok lateResource⟩, ⟨⟨0, lateTheme, 0⟩, 5, .ok lateResource⟩] }

private theorem reached_late : Reached late := by
  let asked := ({} : LoggedCache).step (.request [lateTheme])
  let cleared := asked.step .reset
  let again := cleared.step (.request [lateTheme, lateGrammar])
  let first := again.step (.finish 5 ⟨0, lateTheme, 0⟩ (.ok lateResource))
  let second := first.step (.finish 7 ⟨1, lateTheme, 1⟩ (.ok lateResource))
  have reached_asked : Reached asked := .step .start trivial
  have reached_cleared : Reached cleared := .step reached_asked trivial
  have reached_again : Reached again := .step reached_cleared trivial
  have reached_first : Reached first := .step reached_again List.mem_cons_self
  have reached_second : Reached second := .step reached_first List.mem_cons_self
  have same : second = late := by cbv
  rwa [same] at reached_second

theorem tables_in_step_late :
    Reached late ∧ late.InStep ∧
    (∀ keys, ∀ key ∈ keys, (late.step (.request keys)).cache.status key ≠ .unloaded) ∧
    ∀ h', late.Continues h' → ∀ key entry, late.cache.get? key = some entry →
      h'.cache.get? key = some entry ∧
        ∀ load ∈ h'.log.started, load.key = key → load ∈ late.log.started :=
  ⟨reached_late, tables_in_step reached_late⟩

end LoggedCache

end CodeTint
