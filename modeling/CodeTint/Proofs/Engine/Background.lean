import CodeTint.Engine.Session
import CodeTint.Proofs.Resource.Cache
import Mathlib.Data.List.Nodup

/-!
What goes on in the background of an engine: tasks, the loads they wait for, and completions. Main
statements: whatever happens in whatever order, each load that runs is waited for by a task, and a
key that was loaded is reported by a completion that is prepared or waits to be read.
-/

set_option autoImplicit false
set_option relaxedAutoImplicit false

namespace CodeTint

/-- A task has begun and waits for the load of a key. -/
def BatchTask.Awaits (t : BatchTask) (w : ResourceKey × Nat) : Prop :=
  ∃ r, t.request = some r ∧ w ∈ r.waits

namespace Session

/-- The tasks of a session fit its loads. -/
structure Orderly (s : Session) : Prop where
  cache : s.cache.Sound
  present : ∀ load ∈ s.cache.running, load.generation = s.cache.generation
  own : ∀ t ∈ s.tasks, ∀ r, t.request = some r → r.Within t.batch.keys
  awaited : ∀ load ∈ s.cache.running, ∃ t ∈ s.tasks, t.Awaits (load.key, load.number)

def Reporting (s : Session) (key : ResourceKey) : Prop :=
  (∃ t ∈ s.tasks, ∃ number, t.Awaits (key, number) ∧ s.cache.outcome? number = some (.ok ())) ∨
    ∃ m ∈ s.mailbox, key ∈ m.report.loaded

theorem orderly_start (config : Config) (version : Nat) :
    ({ engine := .start config version } : Session).Orderly where
  cache := Cache.sound_empty
  present _ member := absurd member List.not_mem_nil
  own _ member := absurd member List.not_mem_nil
  awaited _ member := absurd member List.not_mem_nil

section After

variable {s : Session} {step : EngineStep}

private theorem mem_tasks_after {t : BatchTask} : t ∈ (s.after step).tasks ↔
    t ∈ s.tasks ∨ ∃ batch, step.batch = some batch ∧ t = { batch } := by
  simp [after]
  grind

theorem Orderly.after (orderly : s.Orderly) : (s.after step).Orderly := by
  refine ⟨orderly.cache, orderly.present, ?_, ?_⟩
  · intro t member r begun
    rcases mem_tasks_after.mp member with old | ⟨batch, -, rfl⟩
    · exact orderly.own t old r begun
    · cases begun
  · intro load running
    obtain ⟨t, member, awaits⟩ := orderly.awaited load running
    exact ⟨t, mem_tasks_after.mpr (.inl member), awaits⟩

theorem Reporting.after {key : ResourceKey} (reporting : s.Reporting key) :
    (s.after step).Reporting key := by
  rcases reporting with ⟨t, member, found⟩ | posted
  · exact .inl ⟨t, mem_tasks_after.mpr (.inl member), found⟩
  · exact .inr posted

end After

section Begin

variable {s : Session}

theorem begin_cases (s : Session) (token : Nat) : s.begin token = s ∨
    ∃ task ∈ s.tasks, task.batch.token = token ∧ task.request = none ∧
      s.begin token = { s with
        cache := (s.cache.request task.batch.keys).1
        tasks := s.tasks.map fun t => if t.batch.token = token
          then { t with request := some (s.cache.request task.batch.keys).2 } else t } := by
  simp only [Session.begin]
  split
  · exact .inl rfl
  · rename_i task found
    have chosen := List.find?_some found
    simp only [Bool.and_eq_true, decide_eq_true_eq, Option.isNone_iff_eq_none] at chosen
    exact .inr ⟨task, List.mem_of_find?_eq_some found, chosen.1, chosen.2, rfl⟩

private theorem mem_tasks_begin (distinct : (s.tasks.map (·.batch.token)).Nodup) (token : Nat)
    {t : BatchTask} (member : t ∈ s.tasks) {w : ResourceKey × Nat} (awaits : t.Awaits w) :
    t ∈ (s.begin token).tasks := by
  rcases s.begin_cases token with same | ⟨task, found, rfl, idle, begun⟩
  · rw [same]
    exact member
  · rw [begun]
    have different : t.batch.token ≠ task.batch.token := by
      intro same
      obtain rfl := List.inj_on_of_nodup_map distinct member found same
      obtain ⟨r, some, -⟩ := awaits
      rw [idle] at some
      cases some
    exact List.mem_map.mpr ⟨t, member, if_neg different⟩

theorem Orderly.begin (orderly : s.Orderly) (distinct : (s.tasks.map (·.batch.token)).Nodup)
    (token : Nat) : (s.begin token).Orderly := by
  rcases s.begin_cases token with same | ⟨task, member, rfl, idle, begun⟩
  · rw [same]
    exact orderly
  · obtain ⟨sound, -, -, generation, within, -, running⟩ :=
      orderly.cache.request task.batch.keys
    rw [begun]
    refine ⟨sound, ?_, ?_, ?_⟩
    · intro load runs
      rw [generation]
      rcases running load runs with old | ⟨present, -⟩
      · exact orderly.present load old
      · exact present
    · intro u found r requested
      obtain ⟨t, old, rfl⟩ := List.mem_map.mp found
      split at requested
      · rename_i same
        obtain rfl := List.inj_on_of_nodup_map distinct old member same
        obtain rfl := Option.some.inj requested
        rw [if_pos rfl]
        exact within _ (List.Subset.refl _) ⟨by simp, by simp⟩
      · rename_i different
        rw [if_neg different]
        exact orderly.own t old r requested
    · intro load runs
      rcases running load runs with old | ⟨-, waited⟩
      · obtain ⟨t, found, awaits⟩ := orderly.awaited load old
        have kept := mem_tasks_begin distinct task.batch.token found awaits
        rw [begun] at kept
        exact ⟨t, kept, awaits⟩
      · refine ⟨_, List.mem_map_of_mem member, ?_⟩
        rw [if_pos rfl]
        exact ⟨_, rfl, waited⟩

/-- A task that begins changes neither the engine nor what is loaded, has ended or was posted, nor
which batches there are. -/
theorem Orderly.frame_begin (orderly : s.Orderly) (token : Nat) :
    (s.begin token).engine = s.engine ∧ (s.begin token).mailbox = s.mailbox ∧
      (s.begin token).cache.loaded = s.cache.loaded ∧
      (s.begin token).cache.outcomes = s.cache.outcomes ∧
      (s.begin token).tasks.map (·.batch) = s.tasks.map (·.batch) := by
  rcases s.begin_cases token with same | ⟨task, -, -, -, begun⟩
  · rw [same]
    exact ⟨rfl, rfl, rfl, rfl, rfl⟩
  · have requested := orderly.cache.request task.batch.keys
    rw [begun]
    refine ⟨rfl, rfl, requested.loaded, requested.outcomes, ?_⟩
    rw [List.map_map]
    refine List.map_congr_left fun t _ => ?_
    rw [Function.comp_apply]
    split <;> rfl

theorem Reporting.begin (orderly : s.Orderly) (distinct : (s.tasks.map (·.batch.token)).Nodup)
    {key : ResourceKey} (reporting : s.Reporting key) (token : Nat) :
    (s.begin token).Reporting key := by
  obtain ⟨-, mailbox, -, outcomes, -⟩ := orderly.frame_begin token
  rcases reporting with ⟨t, member, number, awaits, ended⟩ | posted
  · refine .inl ⟨t, mem_tasks_begin distinct token member awaits, number, awaits, ?_⟩
    rw [Cache.outcome?, outcomes]
    exact ended
  · rw [Reporting, mailbox]
    exact .inr posted

end Begin

section Finish

variable {s : Session} {load : Load}

theorem Orderly.finish (orderly : s.Orderly) (running : load ∈ s.cache.running)
    (result : Except LoadError Resource) : (s.finish load result).Orderly where
  cache := orderly.cache.finish running
  present other member := by
    have old := (Cache.mem_running_finish.mp member).1
    exact (orderly.present other old).trans Cache.generation_finish.1.symm
  own := orderly.own
  awaited other member := orderly.awaited other (Cache.mem_running_finish.mp member).1

theorem Reporting.finish (orderly : s.Orderly) (running : load ∈ s.cache.running)
    {key : ResourceKey} (reporting : s.Reporting key) (result : Except LoadError Resource) :
    (s.finish load result).Reporting key := by
  rcases reporting with ⟨t, member, number, awaits, ended⟩ | posted
  · exact .inl ⟨t, member, number, awaits, orderly.cache.outcome?_finish running ended⟩
  · exact .inr posted

theorem Orderly.loaded_finish (orderly : s.Orderly) (running : load ∈ s.cache.running)
    (result : Except LoadError Resource) : (s.finish load result).cache.loaded = s.cache.loaded ∨
      ∃ entry, (s.finish load result).cache.loaded = (load.key, entry) :: s.cache.loaded ∧
        (s.finish load result).Reporting load.key := by
  rcases orderly.cache.loaded_finish running with same | ⟨entry, loaded, -, ended⟩
  · exact .inl same
  · obtain ⟨t, member, awaits⟩ := orderly.awaited load running
    exact .inr ⟨entry, loaded, .inl ⟨t, member, load.number, awaits, ended⟩⟩

end Finish

section Post

def postWhere (s : Session) (due : BatchTask → Bool) : Session :=
  { s with
    tasks := s.tasks.filter fun t => !due t || (s.completion? t).isNone
    mailbox := s.mailbox ++ (s.tasks.filter due).filterMap s.completion? }

/-- Posting all at once is posting whatever is due, with all of it due. -/
theorem post_eq_postWhere (s : Session) : s.post = s.postWhere fun _ => true := by
  simp [post, postWhere]

variable {s : Session}

private theorem awaits_postWhere (due : BatchTask → Bool) {t : BatchTask} (member : t ∈ s.tasks)
    {w : ResourceKey × Nat} (awaits : t.Awaits w) : t ∈ (s.postWhere due).tasks ∨
      ∃ m ∈ (s.postWhere due).mailbox, ∃ outcome, s.cache.outcome? w.2 = some outcome ∧
        (outcome = .ok () → w.1 ∈ m.report.loaded) := by
  obtain ⟨r, begun, waited⟩ := awaits
  by_cases chosen : due t = true
  · cases complete : s.completion? t with
    | none => exact .inl (List.mem_filter.mpr ⟨member, by simp [complete]⟩)
    | some m =>
      refine .inr ⟨m, ?_, ?_⟩
      · exact List.mem_append_right _ (List.mem_filterMap.mpr
          ⟨t, List.mem_filter.mpr ⟨member, chosen⟩, complete⟩)
      · simp only [completion?, begun, Option.bind_some, Option.map_eq_some_iff] at complete
        obtain ⟨report, reported, rfl⟩ := complete
        exact Cache.report?_eq_some reported waited
  · exact .inl (List.mem_filter.mpr ⟨member, by simp [chosen]⟩)

theorem Orderly.postWhere (orderly : s.Orderly) (due : BatchTask → Bool) :
    (s.postWhere due).Orderly := by
  refine ⟨orderly.cache, orderly.present,
    fun t member => orderly.own t (List.filter_sublist.subset member), ?_⟩
  intro load running
  obtain ⟨t, member, awaits⟩ := orderly.awaited load running
  rcases awaits_postWhere due member awaits with kept | ⟨m, -, outcome, ended, -⟩
  · exact ⟨t, kept, awaits⟩
  · rw [orderly.cache.unsettled load running] at ended
    cases ended

theorem Reporting.postWhere {key : ResourceKey} (reporting : s.Reporting key)
    (due : BatchTask → Bool) : (s.postWhere due).Reporting key := by
  rcases reporting with ⟨t, member, number, awaits, ended⟩ | ⟨m, posted, loaded⟩
  · rcases awaits_postWhere due member awaits with
      kept | ⟨m, posted, outcome, ended', loaded⟩
    · exact .inl ⟨t, kept, number, awaits, ended⟩
    · rw [ended] at ended'
      exact .inr ⟨m, posted, loaded (Option.some.inj ended').symm⟩
  · exact .inr ⟨m, List.mem_append_left _ posted, loaded⟩

end Post

end Session

end CodeTint
