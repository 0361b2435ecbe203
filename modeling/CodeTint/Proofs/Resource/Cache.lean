import CodeTint.Resource.Cache

/-!
The cache and its loads. Main statements: requests and ends of loads, in any order, keep the tables
of the cache in step with the loads that run; a load that ends well puts one new entry before those
that are there, and nothing else changes what is loaded.
-/

set_option autoImplicit false
set_option relaxedAutoImplicit false

namespace CodeTint

def LoadRequest.Within (r : LoadRequest) (keys : List ResourceKey) : Prop :=
  (∀ key ∈ r.ready, key ∈ keys) ∧ ∀ w ∈ r.waits, w.1 ∈ keys

private theorem LoadRequest.Within.wait {r : LoadRequest} {keys : List ResourceKey}
    {key : ResourceKey}
    {number : Nat} (included : [key] ⊆ keys) (within : r.Within keys) :
    ({ r with waits := r.waits ++ [(key, number)] } : LoadRequest).Within keys := by
  refine ⟨within.1, fun w member => ?_⟩
  rcases List.mem_append.mp member with old | new
  · exact within.2 w old
  · obtain rfl := List.mem_singleton.mp new
    exact included List.mem_cons_self

namespace Cache

section Tables

variable {α : Type} {key other : ResourceKey} {table : List (ResourceKey × α)}

theorem lookup_without_of_ne (different : other ≠ key) :
    (without key table).lookup other = table.lookup other := by
  induction table with
  | nil => rfl
  | cons entry rest ih =>
    by_cases same : entry.1 = key
    · have skipped : (other == entry.1) = false := by simpa [same] using different
      have gone : without key (entry :: rest) = without key rest := by simp [without, same]
      rw [gone, ih, List.lookup_cons, skipped]
    · have kept : without key (entry :: rest) = entry :: without key rest := by
        simp [without, same]
      rw [kept, List.lookup_cons, List.lookup_cons, ih]

theorem lookup_without_self : (without key table).lookup key = none := by
  rw [List.lookup_eq_none_iff]
  intro entry member
  have different : entry.1 ≠ key := by simpa using (List.mem_filter.mp member).2
  simpa using Ne.symm different

private theorem without_eq_self (absent : key ∉ table.map (·.1)) : without key table = table := by
  rw [without, List.filter_eq_self]
  intro entry member
  refine decide_eq_true fun same => absent ?_
  exact List.mem_map.mpr ⟨entry, member, same⟩

end Tables

/-- The tables of a cache fit the loads that run. -/
structure Sound (c : Cache) : Prop where
  numbered : ∀ load ∈ c.running, load.number < c.loadCount
  settled : ∀ number outcome, c.outcome? number = some outcome → number < c.loadCount
  unsettled : ∀ load ∈ c.running, c.outcome? load.number = none
  /-- A load of the present generation is the one that is in flight for its key. -/
  flying : ∀ load ∈ c.running, load.generation = c.generation →
    c.flight? load.key = some load.number
  apart : ∀ key, (c.flight? key).isSome → c.contains key = false
  single : (c.loaded.map (·.1)).Nodup

theorem sound_empty : ({} : Cache).Sound := by
  constructor <;> simp [outcome?, flight?]

private theorem contains_eq_false_iff {c : Cache} {key : ResourceKey} :
    c.contains key = false ↔ key ∉ c.loaded.map (·.1) := by
  simp only [contains, get?, Option.isSome_eq_false_iff, Option.isNone_iff_eq_none,
    List.lookup_eq_none_iff, List.mem_map, not_exists, not_and]
  refine forall₂_congr fun entry _ => ?_
  rw [bne_iff_ne, ne_comm]

theorem contains_iff {c : Cache} {key : ResourceKey} :
    c.contains key = true ↔ key ∈ c.loaded.map (·.1) := by
  rw [← Decidable.not_iff_not, Bool.not_eq_true]
  exact contains_eq_false_iff

theorem get?_keep_of_ne {c : Cache} {key other : ResourceKey} {now : Nat} {resource : Resource}
    (different : other ≠ key) : (c.keep now key resource).get? other = c.get? other := by
  have skipped : (other == key) = false := by simpa using different
  simp only [get?, keep, List.lookup_cons, skipped, lookup_without_of_ne different]

theorem flight?_start_self {c : Cache} {key : ResourceKey} :
    (c.start key).flight? key = some c.loadCount := by
  simp [flight?, Cache.start]

theorem flight?_start_of_ne {c : Cache} {key other : ResourceKey} (different : other ≠ key) :
    (c.start key).flight? other = c.flight? other := by
  have skipped : (other == key) = false := by simpa using different
  simp [flight?, Cache.start, List.lookup_cons, skipped]

theorem requestKey_cases (c : Cache) (r : LoadRequest) (key : ResourceKey) :
    (c.contains key = true ∧ c.requestKey r key = (c, { r with ready := r.ready ++ [key] })) ∨
    (∃ number, c.contains key = false ∧ c.flight? key = some number ∧
      c.requestKey r key = (c, { r with waits := r.waits ++ [(key, number)] })) ∨
    (c.contains key = false ∧ c.flight? key = none ∧
      c.requestKey r key = (c.start key, { r with waits := r.waits ++ [(key, c.loadCount)] })) := by
  cases present : c.contains key with
  | true => exact .inl ⟨rfl, by simp [requestKey, present]⟩
  | false =>
    cases flight : c.flight? key with
    | some number => exact .inr (.inl ⟨number, rfl, rfl, by simp [requestKey, present, flight]⟩)
    | none => exact .inr (.inr ⟨rfl, rfl, by simp [requestKey, present, flight]⟩)

theorem Sound.start {c : Cache} (sound : c.Sound) {key : ResourceKey}
    (unloaded : c.contains key = false) (grounded : c.flight? key = none) :
    (c.start key).Sound where
  numbered load member := by
    rcases List.mem_append.mp member with old | new
    · exact Nat.lt_succ_of_lt (sound.numbered load old)
    · obtain rfl := List.mem_singleton.mp new
      exact Nat.lt_succ_self _
  settled number outcome ended := Nat.lt_succ_of_lt (sound.settled number outcome ended)
  unsettled load member := by
    rcases List.mem_append.mp member with old | new
    · exact sound.unsettled load old
    · obtain rfl := List.mem_singleton.mp new
      cases ended : c.outcome? c.loadCount with
      | none => exact ended
      | some outcome => exact absurd (sound.settled _ _ ended) (Nat.lt_irrefl _)
  flying load member current := by
    rcases List.mem_append.mp member with old | new
    · have flight := sound.flying load old current
      have different : load.key ≠ key := by
        intro same
        rw [same, grounded] at flight
        cases flight
      rw [flight?_start_of_ne different, flight]
    · obtain rfl := List.mem_singleton.mp new
      exact flight?_start_self
  apart other flight := by
    by_cases same : other = key
    · rw [same]
      exact unloaded
    · rw [flight?_start_of_ne same] at flight
      exact sound.apart other flight
  single := sound.single

/-- How a load ends: its resource is kept, its failure is noted, or the cache was reset since it was
started and stays as it is. -/
theorem settle_cases (c : Cache) (now : Nat) (load : Load) (result : Except LoadError Resource) :
    (c.generation = load.generation ∧ ∃ resource,
      c.settle now load result = (c.keep now load.key resource, .ok ())) ∨
    (c.generation = load.generation ∧ ∃ error,
      c.settle now load result = (c.fail now load.key error, .error error)) ∨
    (c.generation ≠ load.generation ∧ ∃ error,
      c.settle now load result = (c, .error error)) := by
  by_cases current : c.generation = load.generation
  · cases result with
    | error e => exact .inr (.inl ⟨current, e, by simp [settle, current]⟩)
    | ok resource =>
      by_cases kind : resource.kind = load.key.kind
      · exact .inl ⟨current, resource, by simp [settle, current, kind]⟩
      · exact .inr (.inl ⟨current, .wrongKind resource.kind load.key, by
          simp [settle, current, kind]⟩)
  · cases result with
    | error e => exact .inr (.inr ⟨current, e, by simp [settle, current]⟩)
    | ok resource =>
      by_cases kind : resource.kind = load.key.kind
      · exact .inr (.inr ⟨current, .discarded, by simp [settle, current, kind]⟩)
      · exact .inr (.inr ⟨current, .wrongKind resource.kind load.key, by
          simp [settle, current, kind]⟩)

section Finish

variable {c : Cache} {now : Nat} {load : Load} {result : Except LoadError Resource}

theorem outcome?_finish_self :
    (c.finish now load result).outcome? load.number = some (c.settle now load result).2 := by
  simp [outcome?, finish]

private theorem outcome?_finish_of_ne {number : Nat} (different : number ≠ load.number) :
    (c.finish now load result).outcome? number = c.outcome? number := by
  have skipped : (number == load.number) = false := by simpa using different
  simp [outcome?, finish, List.lookup_cons, skipped]

theorem Sound.outcome?_finish (sound : c.Sound) (running : load ∈ c.running) {number : Nat}
    {outcome : Outcome} (ended : c.outcome? number = some outcome) :
    (c.finish now load result).outcome? number = some outcome := by
  have different : number ≠ load.number := by
    intro same
    rw [same, sound.unsettled load running] at ended
    cases ended
  rw [outcome?_finish_of_ne different, ended]

theorem mem_running_finish {other : Load} : other ∈ (c.finish now load result).running ↔
    other ∈ c.running ∧ other.number ≠ load.number := by
  simp [finish]

theorem generation_finish :
    (c.finish now load result).generation = c.generation ∧
      (c.finish now load result).loadCount = c.loadCount := by
  obtain ⟨-, _, settled⟩ | ⟨-, _, settled⟩ | ⟨-, _, settled⟩ := settle_cases c now load result
  all_goals simp [finish, settled, keep, fail]

theorem flight?_finish_of_ne {key : ResourceKey} (different : key ≠ load.key) :
    (c.finish now load result).flight? key = c.flight? key := by
  obtain ⟨-, _, settled⟩ | ⟨-, _, settled⟩ | ⟨-, _, settled⟩ := settle_cases c now load result
  all_goals simp [finish, settled, keep, fail, flight?, lookup_without_of_ne different]

theorem flight?_finish_self (current : c.generation = load.generation) :
    (c.finish now load result).flight? load.key = none := by
  obtain ⟨-, _, settled⟩ | ⟨-, _, settled⟩ | ⟨other, _, settled⟩ := settle_cases c now load result
  · simp [finish, settled, keep, flight?, lookup_without_self]
  · simp [finish, settled, fail, flight?, lookup_without_self]
  · exact absurd current other

theorem finish_of_discarded (discarded : c.generation ≠ load.generation) (key : ResourceKey) :
    (c.finish now load result).flight? key = c.flight? key ∧
      (c.finish now load result).contains key = c.contains key := by
  obtain ⟨current, _⟩ | ⟨current, _⟩ | ⟨-, _, settled⟩ := settle_cases c now load result
  · exact absurd current discarded
  · exact absurd current discarded
  · simp [finish, settled, flight?, contains, get?]

theorem Sound.loaded_finish (sound : c.Sound) (running : load ∈ c.running) :
    (c.finish now load result).loaded = c.loaded ∨
      ∃ entry, (c.finish now load result).loaded = (load.key, entry) :: c.loaded ∧
        load.key ∉ c.loaded.map (·.1) ∧
        (c.finish now load result).outcome? load.number = some (.ok ()) := by
  obtain ⟨current, resource, settled⟩ | ⟨-, _, settled⟩ | ⟨-, _, settled⟩ :=
    settle_cases c now load result
  · have flight := sound.flying load running current.symm
    have absent := contains_eq_false_iff.mp (sound.apart load.key (by simp [flight]))
    refine .inr ⟨⟨resource, now⟩, ?_, absent, ?_⟩
    · simp [finish, settled, keep, without_eq_self absent]
    · rw [outcome?_finish_self, settled]
  · exact .inl (by simp [finish, settled, fail])
  · exact .inl (by simp [finish, settled])

private theorem contains_finish_of_ne {key : ResourceKey} (different : key ≠ load.key) :
    (c.finish now load result).contains key = c.contains key := by
  obtain ⟨-, resource, settled⟩ | ⟨-, _, settled⟩ | ⟨-, _, settled⟩ :=
    settle_cases c now load result
  · have same : (c.finish now load result).get? key = (c.keep now load.key resource).get? key := by
      simp only [get?, finish, settled]
    rw [contains, same, get?_keep_of_ne different, contains]
  · simp [finish, settled, fail, contains, get?]
  · simp [finish, settled, contains, get?]

theorem Sound.finish (sound : c.Sound) (running : load ∈ c.running) :
    (c.finish now load result).Sound where
  numbered other member := by
    rw [generation_finish.2]
    exact sound.numbered other (mem_running_finish.mp member).1
  settled number outcome ended := by
    rw [generation_finish.2]
    by_cases same : number = load.number
    · rw [same]
      exact sound.numbered load running
    · rw [outcome?_finish_of_ne same] at ended
      exact sound.settled number outcome ended
  unsettled other member := by
    obtain ⟨old, different⟩ := mem_running_finish.mp member
    rw [outcome?_finish_of_ne different]
    exact sound.unsettled other old
  flying other member current := by
    obtain ⟨old, different⟩ := mem_running_finish.mp member
    rw [generation_finish.1] at current
    have flight := sound.flying other old current
    by_cases present : c.generation = load.generation
    · have different' : other.key ≠ load.key := by
        intro same
        have own := sound.flying load running present.symm
        rw [same, own] at flight
        exact different (Option.some.inj flight).symm
      rw [flight?_finish_of_ne different', flight]
    · rw [(finish_of_discarded present _).1, flight]
  apart key flight := by
    by_cases present : c.generation = load.generation
    · have different : key ≠ load.key := by
        intro same
        rw [same, flight?_finish_self present] at flight
        cases flight
      rw [flight?_finish_of_ne different] at flight
      rw [contains_finish_of_ne different]
      exact sound.apart key flight
    · rw [(finish_of_discarded present key).1] at flight
      rw [(finish_of_discarded present key).2]
      exact sound.apart key flight
  single := by
    rcases sound.loaded_finish running with same | ⟨entry, added, absent, -⟩
    · rw [same]
      exact sound.single
    · rw [added, List.map_cons]
      exact List.nodup_cons.mpr ⟨absent, sound.single⟩

end Finish

/-- What a request for keys leads to: nothing that is loaded or has ended changes, and the request
waits for each load that it has started. -/
structure Requested (c : Cache) (r : LoadRequest) (keys : List ResourceKey)
    (next : Cache × LoadRequest) : Prop where
  sound : next.1.Sound
  loaded : next.1.loaded = c.loaded
  outcomes : next.1.outcomes = c.outcomes
  generation : next.1.generation = c.generation
  within : ∀ all, keys ⊆ all → r.Within all → next.2.Within all
  kept : ∀ w ∈ r.waits, w ∈ next.2.waits
  running : ∀ load ∈ next.1.running, load ∈ c.running ∨
    load.generation = c.generation ∧ (load.key, load.number) ∈ next.2.waits

private theorem Sound.requestKey {c : Cache} (sound : c.Sound) (r : LoadRequest)
    (key : ResourceKey) : c.Requested r [key] (c.requestKey r key) := by
  rcases c.requestKey_cases r key with ⟨-, step⟩ | ⟨number, -, -, step⟩ | ⟨unloaded, grounded, step⟩
  all_goals rw [step]
  · refine ⟨sound, rfl, rfl, rfl, ?_, fun _ => id, fun _ => .inl⟩
    intro all included within
    refine ⟨fun other member => ?_, within.2⟩
    rcases List.mem_append.mp member with old | new
    · exact within.1 other old
    · exact included new
  · exact ⟨sound, rfl, rfl, rfl, fun _ => LoadRequest.Within.wait, fun _ => List.mem_append_left _,
      fun _ => .inl⟩
  · refine ⟨sound.start unloaded grounded, rfl, rfl, rfl, fun _ => LoadRequest.Within.wait,
      fun _ => List.mem_append_left _, ?_⟩
    intro load member
    refine (List.mem_append.mp member).imp id fun new => ?_
    obtain rfl := List.mem_singleton.mp new
    exact ⟨rfl, List.mem_append_right _ List.mem_cons_self⟩

private theorem Sound.requestKeys {c : Cache} (sound : c.Sound) (r : LoadRequest)
    (keys : List ResourceKey) : c.Requested r keys (c.requestKeys r keys) := by
  induction keys generalizing c r with
  | nil => exact ⟨sound, rfl, rfl, rfl, fun _ _ => id, fun _ => id, fun _ => .inl⟩
  | cons key rest ih =>
    have first := sound.requestKey r key
    have later := ih first.sound (c.requestKey r key).2
    refine ⟨later.sound, later.loaded.trans first.loaded, later.outcomes.trans first.outcomes,
      later.generation.trans first.generation, ?_,
      fun w member => later.kept w (first.kept w member), ?_⟩
    · intro all included within
      obtain ⟨own, others⟩ := List.cons_subset.mp included
      exact later.within all others (first.within all (by simpa using own) within)
    · intro load member
      rcases later.running load member with early | ⟨present, waited⟩
      · exact (first.running load early).imp id fun own => ⟨own.1, later.kept _ own.2⟩
      · exact .inr ⟨present.trans first.generation, waited⟩

theorem Sound.request {c : Cache} (sound : c.Sound) (keys : List ResourceKey) :
    c.Requested {} keys (c.request keys) := by
  obtain ⟨after, loaded, outcomes, generation, within, kept, running⟩ :=
    sound.requestKeys {} keys.eraseDups
  refine ⟨after, loaded, outcomes, generation, fun all included => ?_, kept, running⟩
  exact within all fun key member => included (List.mem_eraseDups.mp member)

end Cache

namespace LoadReport

variable {r : LoadReport} {key : ResourceKey} {outcome : Outcome}

private theorem mem_loaded_add {other : ResourceKey} : other ∈ (r.add key outcome).loaded ↔
    other ∈ r.loaded ∨ key = other ∧ outcome = .ok () := by
  cases outcome <;> simp [add, eq_comm]

private theorem mem_failed_add {p : ResourceKey × LoadError} : p ∈ (r.add key outcome).failed ↔
    p ∈ r.failed ∨ key = p.1 ∧ outcome = .error p.2 := by
  cases outcome with
  | ok _ => simp [add]
  | error e => simp [add, Prod.ext_iff, eq_comm]

/-- The keys of a report, each as often as it is told of. -/
def keys (r : LoadReport) : List ResourceKey := r.loaded ++ r.failed.map (·.1)

private theorem keys_add : (r.add key outcome).keys.Perm (r.keys ++ [key]) := by
  cases outcome with
  | ok _ =>
    simp only [keys, add, List.append_assoc]
    exact List.perm_append_comm.append_left r.loaded
  | error e => simp [keys, add]

end LoadReport

namespace Cache

/-- A report tells of each key that was asked for: of those that were loaded, and of each load that
was waited for how it ended. -/
structure Reported (c : Cache) (begun : LoadReport) (waits : List (ResourceKey × Nat))
    (report : LoadReport) : Prop where
  ended : ∀ w ∈ waits, (c.outcome? w.2).isSome
  loaded : ∀ key, key ∈ report.loaded ↔
    key ∈ begun.loaded ∨ ∃ w ∈ waits, w.1 = key ∧ c.outcome? w.2 = some (.ok ())
  failed : ∀ p, p ∈ report.failed ↔
    p ∈ begun.failed ∨ ∃ w ∈ waits, w.1 = p.1 ∧ c.outcome? w.2 = some (.error p.2)
  keys : report.keys.Perm (begun.keys ++ waits.map (·.1))

section Report

variable {c : Cache} {r : LoadRequest} {report : LoadReport}

private theorem Reported.cons {begun : LoadReport} {w : ResourceKey × Nat}
    {rest : List (ResourceKey × Nat)} {outcome : Outcome} (ended : c.outcome? w.2 = some outcome)
    (reported : c.Reported (begun.add w.1 outcome) rest report) :
    c.Reported begun (w :: rest) report := by
  refine ⟨?_, fun key => ?_, fun p => ?_, ?_⟩
  · intro v member
    rcases List.mem_cons.mp member with rfl | later
    · simp [ended]
    · exact reported.ended v later
  · rw [reported.loaded, LoadReport.mem_loaded_add]
    simp only [List.mem_cons, exists_eq_or_imp, ended, Option.some.injEq, or_assoc]
  · rw [reported.failed, LoadReport.mem_failed_add]
    simp only [List.mem_cons, exists_eq_or_imp, ended, Option.some.injEq, or_assoc]
  · have added : (begun.add w.1 outcome).keys.Perm (begun.keys ++ [w.1]) := LoadReport.keys_add
    have all := reported.keys.trans (added.append_right _)
    rwa [List.append_assoc] at all

private theorem reported_of_foldlM {waits : List (ResourceKey × Nat)} {begun : LoadReport}
    (complete : waits.foldlM (fun report (key, number) =>
      (c.outcome? number).map (LoadReport.add report key)) begun = some report) :
    c.Reported begun waits report := by
  induction waits generalizing begun with
  | nil =>
    obtain rfl : begun = report := Option.some.inj complete
    refine ⟨?_, ?_, ?_, ?_⟩ <;> simp
  | cons w rest ih =>
    cases ended : c.outcome? w.2 with
    | none => simp [ended] at complete
    | some outcome =>
      simp only [List.foldlM_cons, ended, Option.map_some, Option.bind_eq_bind,
        Option.bind_some] at complete
      exact .cons ended (ih complete)

theorem reported_of_report? (complete : c.report? r = some report) :
    c.Reported { loaded := r.ready } r.waits report := reported_of_foldlM complete

theorem isSome_report?_iff : (c.report? r).isSome ↔ ∀ w ∈ r.waits, (c.outcome? w.2).isSome := by
  rw [report?]
  generalize ({ loaded := r.ready } : LoadReport) = begun
  induction r.waits generalizing begun with
  | nil => simp
  | cons w rest ih =>
    rw [List.forall_mem_cons, List.foldlM_cons]
    cases ended : c.outcome? w.2 with
    | none => simp [ended]
    | some outcome => simpa [ended] using ih (begun.add w.1 outcome)

/-- A request is reported when all loads that it waits for have ended, and those that ended well are
reported as loaded. -/
theorem report?_eq_some (complete : c.report? r = some report) {w : ResourceKey × Nat}
    (waited : w ∈ r.waits) :
    ∃ outcome, c.outcome? w.2 = some outcome ∧ (outcome = .ok () → w.1 ∈ report.loaded) := by
  have reported := reported_of_report? complete
  obtain ⟨outcome, ended⟩ := Option.isSome_iff_exists.mp (reported.ended w waited)
  refine ⟨outcome, ended, ?_⟩
  rintro rfl
  exact (reported.loaded w.1).mpr (.inr ⟨w, waited, rfl, ended⟩)

theorem loaded_subset_of_report? (complete : c.report? r = some report) {keys : List ResourceKey}
    (within : r.Within keys) : report.loaded ⊆ keys := by
  intro key member
  rcases ((reported_of_report? complete).loaded key).mp member with ready | ⟨w, waited, rfl, -⟩
  · exact within.1 key ready
  · exact within.2 w waited

end Report

end Cache

end CodeTint
