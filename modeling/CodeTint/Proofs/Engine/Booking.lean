import CodeTint.Proofs.Engine.Background
import CodeTint.Proofs.Engine.Validity

/-!
Batches and the completions that answer them. Main statement: whatever happens in whatever order,
each completion that is prepared or waits to be read answers a batch of its own, which is the
outstanding one or has lost its place to a newer one; so one that does not count is that of a batch
which was superseded.
-/

set_option autoImplicit false
set_option relaxedAutoImplicit false

namespace CodeTint

namespace Batches

theorem sync_cases (b : Batches) (d : Document) (c : Cache) (l : Loader) (config : Config)
    (now : Nat) (skip : List ResourceKey) : b.sync d c l config now skip = (b, none) ∨
      ∃ batch : Batch, batch.token = b.nextToken ∧ b.sync d c l config now skip =
        ({ b with nextToken := b.nextToken + 1, outstanding := some batch }, some batch) := by
  simp only [sync]
  split
  · exact .inl rfl
  · split
    · exact .inl rfl
    · exact .inr ⟨_, rfl, rfl⟩

theorem complete_cases (b : Batches) (token : Nat) :
    (b.complete token = ({ b with outstanding := none }, .current) ∧
      ∃ batch, b.outstanding = some batch ∧ batch.token = token) ∨
    b.complete token = (b, .stale) ∧
      (b.tornDown = false → ∀ batch, b.outstanding = some batch → batch.token ≠ token) := by
  simp only [complete]
  split
  · rename_i counts
    simp only [Bool.and_eq_true, Option.any_eq_true, decide_eq_true_eq] at counts
    exact .inl ⟨rfl, counts.2⟩
  · rename_i discarded
    refine .inr ⟨rfl, fun live batch outstanding same => discarded ?_⟩
    simp [live, outstanding, same]

private theorem nextToken_complete (b : Batches) (token : Nat) :
    (b.complete token).1.nextToken = b.nextToken := by
  rcases b.complete_cases token with ⟨counts, -⟩ | ⟨discarded, -⟩
  · rw [counts]
  · rw [discarded]

theorem tornDown_complete (b : Batches) (token : Nat) :
    (b.complete token).1.tornDown = b.tornDown := by
  rcases b.complete_cases token with ⟨counts, -⟩ | ⟨discarded, -⟩
  · rw [counts]
  · rw [discarded]

section Sync

variable {b : Batches} {d : Document} {c : Cache} {l : Loader} {config : Config} {now : Nat}
  {skip : List ResourceKey} {key : ResourceKey}

theorem mem_of_sync {batch : Batch} (issued : (b.sync d c l config now skip).2 = some batch)
    (member : key ∈ batch.keys) : key ∈ b.missing d c l config now ∧ key ∉ skip := by
  simp only [sync] at issued
  split at issued
  · cases issued
  · split at issued
    · cases issued
    · obtain rfl := Option.some.inj issued
      simpa using List.mem_filter.mp member

theorem mem_outstanding_sync (live : b.tornDown = false)
    (missing : key ∈ b.missing d c l config now) (kept : key ∉ skip) :
    ∃ batch, (b.sync d c l config now skip).1.outstanding = some batch ∧ key ∈ batch.keys := by
  have chosen : key ∈ (b.missing d c l config now).filter (!skip.contains ·) :=
    List.mem_filter.mpr ⟨missing, by simpa using kept⟩
  simp only [sync, live]
  generalize (b.missing d c l config now).filter (!skip.contains ·) = keys at chosen
  have nonempty : keys.isEmpty = false :=
    List.isEmpty_eq_false_iff.mpr (List.ne_nil_of_mem chosen)
  cases covered : b.covers keys with
  | true =>
    obtain ⟨batch, outstanding, all⟩ := (Option.any_eq_true ..).mp covered
    have own := List.all_eq_true.mp all key chosen
    exact ⟨batch, by simpa using outstanding, by simpa using own⟩
  | false => exact ⟨⟨b.nextToken, keys, d.version⟩, by simp [nonempty], chosen⟩

end Sync

/-- From some batches on an operation issues none, or one that takes the place of the outstanding
one under a new token. -/
def Issues (b : Batches) (step : EngineStep) : Prop :=
  (step.batch = none ∧ step.engine.batches = b) ∨
    ∃ batch, step.batch = some batch ∧ batch.token = b.nextToken ∧
      step.engine.batches =
        { b with nextToken := b.nextToken + 1, outstanding := some batch }

theorem tornDown_of_issues {b : Batches} {step : EngineStep} (issues : b.Issues step) :
    step.engine.batches.tornDown = b.tornDown := by
  rcases issues with ⟨-, same⟩ | ⟨batch, -, -, issued⟩
  · rw [same]
  · rw [issued]

end Batches

namespace Engine

private theorem issues_requestMissing (e : Engine) (s : Surroundings) (skip : List ResourceKey)
    (told : List DecorationSet) (changed : Bool) :
    e.batches.Issues ⟨(e.requestMissing s skip).1, (e.requestMissing s skip).2, told, changed⟩ := by
  simp only [Batches.Issues, requestMissing]
  rcases e.batches.sync_cases e.document s.cache s.loader e.config s.now skip with
    none | ⟨batch, token, issued⟩
  · rw [none]
    exact .inl ⟨rfl, rfl⟩
  · rw [issued]
    exact .inr ⟨batch, rfl, token, rfl⟩

theorem issues_init (e : Engine) (s : Surroundings) (d : Document) :
    e.batches.Issues (e.init s d) :=
  issues_requestMissing (({ e with document := d, selection := {} } : Engine).recompute s) s [] _ _

theorem issues_apply (e : Engine) (s : Surroundings) (t : Transaction) :
    e.batches.Issues (e.apply s t) := by
  rw [← (document_follow e s t).2.2.1]
  exact issues_requestMissing (e.follow s t) s [] _ _

theorem issues_complete (e : Engine) (s : Surroundings) (token : Nat) (report : LoadReport) :
    (e.batches.complete token).1.Issues (e.complete s token report) := by
  cases completed : e.batches.complete token with
  | mk batches completion =>
    cases completion with
    | stale =>
      have kept : e.batches = batches := by
        rcases e.batches.complete_cases token with ⟨counts, -⟩ | ⟨discarded, -⟩
        · rw [counts] at completed
          cases completed
        · rw [discarded] at completed
          exact congrArg Prod.fst completed
      simp only [complete, completed]
      exact .inl ⟨rfl, kept⟩
    | current =>
      cases loaded : report.loaded.isEmpty with
      | true =>
        simp only [complete, completed, loaded]
        exact issues_requestMissing { e with batches } s _ _ _
      | false =>
        simp only [complete, completed, loaded]
        exact issues_requestMissing (({ e with batches } : Engine).recompute s) s _ _ _

end Engine

namespace Session

/-- The tokens of the completions that are prepared or wait to be read. -/
def tokens (s : Session) : List Nat :=
  s.tasks.map (·.batch.token) ++ s.mailbox.map (·.token)

/-- Completions have tokens of their own, each of which was issued. -/
structure Numbered (s : Session) : Prop where
  live : s.engine.batches.tornDown = false
  distinct : s.tokens.Nodup
  issued : ∀ token ∈ s.tokens, token < s.engine.batches.nextToken

/-- The session whose first completion was taken from the mailbox and from the books. -/
def taken (s : Session) (m : CompletionMessage) (rest : List CompletionMessage) : Session :=
  { s with
    mailbox := rest
    engine := { s.engine with batches := (s.engine.batches.complete m.token).1 } }

section Tokens

variable {s : Session}

theorem tokens_after (s : Session) (step : EngineStep) :
    (s.after step).tokens.Perm ((step.batch.map (·.token)).toList ++ s.tokens) := by
  cases issued : step.batch with
  | none => simp [tokens, Session.after, issued]
  | some batch => simp [tokens, Session.after, issued]

theorem tokens_begin (s : Session) (token : Nat) : (s.begin token).tokens = s.tokens := by
  rcases s.begin_cases token with same | ⟨task, -, -, -, begun⟩
  · rw [same]
  · have each : ∀ t : BatchTask, (if t.batch.token = token then
        { t with request := some (s.cache.request task.batch.keys).2 } else t).batch = t.batch := by
      intro t
      split <;> rfl
    rw [begun]
    simp [tokens, each]

theorem tokens_postWhere (s : Session) (due : BatchTask → Bool) :
    (s.postWhere due).tokens.Perm s.tokens := by
  have posted : ∀ tasks : List BatchTask,
      (tasks.map (·.batch.token)).Perm
        ((tasks.filter fun t => !due t || (s.completion? t).isNone).map (·.batch.token) ++
          ((tasks.filter due).filterMap s.completion?).map (·.token)) := by
    intro tasks
    induction tasks with
    | nil => rfl
    | cons t rest ih =>
      cases chosen : due t with
      | false => simpa [chosen] using ih
      | true =>
        cases complete : s.completion? t with
        | none => simpa [chosen, complete] using ih
        | some m =>
          have token : m.token = t.batch.token := by
            obtain ⟨report, -, rfl⟩ := Option.map_eq_some_iff.mp complete
            rfl
          simpa [chosen, complete, token] using (ih.cons _).trans List.perm_middle.symm
  let kept := (s.tasks.filter fun t => !due t || (s.completion? t).isNone).map (·.batch.token)
  let sent := ((s.tasks.filter due).filterMap s.completion?).map (·.token)
  have moved : (s.postWhere due).tokens = kept ++ (s.mailbox.map (·.token) ++ sent) := by
    rw [← List.map_append]
    rfl
  have swapped : (kept ++ (s.mailbox.map (·.token) ++ sent)).Perm
      (kept ++ sent ++ s.mailbox.map (·.token)) := by
    rw [List.append_assoc]
    exact List.perm_append_comm.append_left kept
  rw [moved]
  exact swapped.trans ((posted s.tasks).symm.append_right _)

theorem tokens_taken {m : CompletionMessage} {rest : List CompletionMessage}
    (waiting : s.mailbox = m :: rest) : s.tokens.Perm (m.token :: (s.taken m rest).tokens) := by
  rw [tokens, waiting, List.map_cons]
  exact List.perm_middle

theorem Numbered.congr {s' : Session} (numbered : s.Numbered) (same : s'.tokens.Perm s.tokens)
    (books : s'.engine.batches = s.engine.batches) : s'.Numbered := by
  refine ⟨?_, same.nodup_iff.mpr numbered.distinct, fun token member => ?_⟩
  · rw [books]
    exact numbered.live
  · rw [books]
    exact numbered.issued token (same.mem_iff.mp member)

theorem Numbered.after {step : EngineStep} (numbered : s.Numbered)
    (issues : s.engine.batches.Issues step) : (s.after step).Numbered := by
  have live : (s.after step).engine.batches.tornDown = false :=
    (Batches.tornDown_of_issues issues).trans numbered.live
  have all := s.tokens_after step
  rcases issues with ⟨quiet, same⟩ | ⟨batch, given, token, issued⟩
  · rw [quiet] at all
    exact numbered.congr all same
  · have next : (s.after step).engine.batches.nextToken = s.engine.batches.nextToken + 1 :=
      congrArg Batches.nextToken issued
    rw [given, Option.map_some, Option.toList_some, token, List.singleton_append] at all
    refine ⟨live, all.nodup_iff.mpr (List.nodup_cons.mpr ⟨fun used => ?_, numbered.distinct⟩), ?_⟩
    · exact Nat.lt_irrefl _ (numbered.issued _ used)
    · intro used member
      rw [next]
      rcases List.mem_cons.mp (all.mem_iff.mp member) with rfl | earlier
      · exact Nat.lt_succ_self _
      · exact Nat.lt_succ_of_lt (numbered.issued used earlier)

theorem Numbered.taken {m : CompletionMessage} {rest : List CompletionMessage}
    (numbered : s.Numbered) (waiting : s.mailbox = m :: rest) :
    (s.taken m rest).Numbered ∧ m.token ∉ (s.taken m rest).tokens := by
  have all := tokens_taken waiting
  obtain ⟨gone, distinct⟩ := List.nodup_cons.mp (all.nodup_iff.mp numbered.distinct)
  refine ⟨⟨?_, distinct, fun token member => ?_⟩, gone⟩
  · exact (s.engine.batches.tornDown_complete m.token).trans numbered.live
  · have next : (s.taken m rest).engine.batches.nextToken = s.engine.batches.nextToken :=
      s.engine.batches.nextToken_complete m.token
    rw [next]
    exact numbered.issued token (all.mem_iff.mpr (List.mem_cons_of_mem _ member))

end Tokens

def Knows (s : Session) (superseded : List Batch) (b : Batch) : Prop :=
  s.engine.batches.outstanding = some b ∨ b ∈ superseded

/-- The completions of a session answer batches of their own. -/
structure Booked (superseded : List Batch) (s : Session) : Prop where
  live : s.engine.batches.tornDown = false
  distinct : s.tokens.Nodup
  issued : ∀ token ∈ s.tokens, token < s.engine.batches.nextToken
  tasks : ∀ t ∈ s.tasks, s.Knows superseded t.batch
  messages : ∀ m ∈ s.mailbox, ∃ b, s.Knows superseded b ∧ b.token = m.token ∧
    m.report.loaded ⊆ b.keys

/-- The batch that has lost its place from one state to another. -/
def displaced (before after : Session) : List Batch :=
  if after.engine.batches.nextToken = before.engine.batches.nextToken then []
  else before.engine.batches.outstanding.toList

variable {s : Session} {superseded : List Batch}

private theorem Booked.numbered (booked : s.Booked superseded) : s.Numbered :=
  ⟨booked.live, booked.distinct, booked.issued⟩

theorem Booked.distinct_tasks (booked : s.Booked superseded) :
    (s.tasks.map (·.batch.token)).Nodup := booked.distinct.of_append_left

theorem booked_start (config : Config) (version : Nat) :
    ({ engine := .start config version } : Session).Booked [] where
  live := rfl
  distinct := List.nodup_nil
  issued _ member := absurd member List.not_mem_nil
  tasks _ member := absurd member List.not_mem_nil
  messages _ member := absurd member List.not_mem_nil

section After

variable {step : EngineStep}

private theorem Knows.after {b : Batch} (known : s.Knows superseded b)
    (issues : s.engine.batches.Issues step) :
    (s.after step).Knows (superseded ++ s.displaced (s.after step)) b := by
  rcases issues with ⟨-, same⟩ | ⟨batch, -, -, issued⟩
  · have outstanding : (s.after step).engine.batches = s.engine.batches := same
    rcases known with present | past
    · exact .inl (by rw [outstanding, present])
    · exact .inr (List.mem_append_left _ past)
  · have next : (s.after step).engine.batches.nextToken ≠ s.engine.batches.nextToken := by
      show step.engine.batches.nextToken ≠ _
      rw [issued]
      exact Nat.succ_ne_self _
    rcases known with present | past
    · refine .inr (List.mem_append_right _ ?_)
      rw [displaced, if_neg next, present]
      exact List.mem_singleton_self b
    · exact .inr (List.mem_append_left _ past)

theorem Booked.after (booked : s.Booked superseded) (issues : s.engine.batches.Issues step) :
    (s.after step).Booked (superseded ++ s.displaced (s.after step)) := by
  have messages : ∀ m ∈ (s.after step).mailbox, ∃ b,
      (s.after step).Knows (superseded ++ s.displaced (s.after step)) b ∧ b.token = m.token ∧
        m.report.loaded ⊆ b.keys := by
    intro m member
    obtain ⟨b, known, token, keys⟩ := booked.messages m member
    exact ⟨b, known.after issues, token, keys⟩
  have old : ∀ t ∈ s.tasks,
      (s.after step).Knows (superseded ++ s.displaced (s.after step)) t.batch :=
    fun t member => (booked.tasks t member).after issues
  obtain ⟨live, distinct, numbers⟩ := booked.numbered.after issues
  refine ⟨live, distinct, numbers, ?_, messages⟩
  intro t member
  rcases issues with ⟨quiet, -⟩ | ⟨batch, given, -, issued⟩
  · have tasks : (s.after step).tasks = s.tasks := by simp [Session.after, quiet]
    rw [tasks] at member
    exact old t member
  · have tasks : (s.after step).tasks = s.tasks ++ [⟨batch, none⟩] := by
      simp [Session.after, given]
    have outstanding : (s.after step).engine.batches.outstanding = some batch :=
      congrArg Batches.outstanding issued
    rw [tasks] at member
    rcases List.mem_append.mp member with earlier | new
    · exact old t earlier
    · obtain rfl := List.mem_singleton.mp new
      exact .inl outstanding

end After

theorem Booked.begin (booked : s.Booked superseded) (orderly : s.Orderly) (token : Nat) :
    (s.begin token).Booked superseded := by
  obtain ⟨engine, mailbox, -, -, batches⟩ := orderly.frame_begin token
  have knows : ∀ {b : Batch}, s.Knows superseded b → (s.begin token).Knows superseded b := by
    intro b known
    rw [Knows, engine]
    exact known
  obtain ⟨live, distinct, numbers⟩ := booked.numbered.congr
    (List.Perm.of_eq (s.tokens_begin token)) (congrArg Engine.batches engine)
  refine ⟨live, distinct, numbers, ?_, ?_⟩
  · intro t member
    have found : t.batch ∈ s.tasks.map (·.batch) := batches ▸ List.mem_map_of_mem member
    obtain ⟨u, old, batch⟩ := List.mem_map.mp found
    exact batch ▸ knows (booked.tasks u old)
  · intro m member
    rw [mailbox] at member
    obtain ⟨b, known, rest⟩ := booked.messages m member
    exact ⟨b, knows known, rest⟩

theorem Booked.postWhere (booked : s.Booked superseded) (orderly : s.Orderly)
    (due : BatchTask → Bool) : (s.postWhere due).Booked superseded := by
  obtain ⟨live, distinct, numbers⟩ := booked.numbered.congr (s.tokens_postWhere due) rfl
  refine ⟨live, distinct, numbers,
    fun t member => booked.tasks t (List.filter_sublist.subset member), ?_⟩
  intro m member
  rcases List.mem_append.mp member with old | new
  · exact booked.messages m old
  · obtain ⟨t, due, complete⟩ := List.mem_filterMap.mp new
    have found := List.filter_sublist.subset due
    simp only [completion?, Option.map_eq_some_iff, Option.bind_eq_some_iff] at complete
    obtain ⟨report, ⟨r, begun, reported⟩, rfl⟩ := complete
    exact ⟨t.batch, booked.tasks t found, rfl,
      Cache.loaded_subset_of_report? reported (orderly.own t found r begun)⟩

section Read

variable {m : CompletionMessage} {rest : List CompletionMessage}

theorem Booked.superseded_of_stale (booked : s.Booked superseded) (waiting : s.mailbox = m :: rest)
    (stale : (s.engine.batches.complete m.token).2 = .stale) :
    ∃ b ∈ superseded, m.report.loaded ⊆ b.keys := by
  obtain ⟨b, known, token, keys⟩ := booked.messages m (waiting ▸ List.mem_cons_self)
  rcases s.engine.batches.complete_cases m.token with ⟨counts, -⟩ | ⟨-, other⟩
  · rw [counts] at stale
    cases stale
  · rcases known with present | past
    · exact absurd token (other booked.live b present)
    · exact ⟨b, past, keys⟩

private theorem Booked.taken (booked : s.Booked superseded) (waiting : s.mailbox = m :: rest) :
    (s.taken m rest).Booked superseded := by
  obtain ⟨⟨live, distinct, numbers⟩, gone⟩ := booked.numbered.taken waiting
  have knows : ∀ {b : Batch}, b.token ≠ m.token → s.Knows superseded b →
      (s.taken m rest).Knows superseded b := by
    intro b different known
    refine known.imp (fun present => ?_) id
    show (s.engine.batches.complete m.token).1.outstanding = some b
    rcases s.engine.batches.complete_cases m.token with ⟨-, batch, own, token⟩ | ⟨discarded, -⟩
    · rw [present] at own
      exact absurd (Option.some.inj own ▸ token) different
    · rw [discarded, present]
  refine ⟨live, distinct, numbers, ?_, ?_⟩
  · intro t member
    refine knows (fun same => gone ?_) (booked.tasks t member)
    exact List.mem_append_left _ (List.mem_map.mpr ⟨t, member, same⟩)
  · intro m' member
    obtain ⟨b, known, token, keys⟩ :=
      booked.messages m' (waiting ▸ List.mem_cons_of_mem _ member)
    refine ⟨b, knows (fun same => gone ?_) known, token, keys⟩
    exact List.mem_append_right _ (List.mem_map.mpr ⟨m', member, token.symm.trans same⟩)

theorem Booked.read (booked : s.Booked superseded) (waiting : s.mailbox = m :: rest) (l : Loader) :
    (({ s with mailbox := rest } : Session).read l m).1.Booked superseded := by
  let step := s.engine.complete (s.surroundings l) m.token m.report
  have after := (booked.taken waiting).after
    (Engine.issues_complete s.engine (s.surroundings l) m.token m.report)
  -- What is issued after a completion that counts finds the books empty.
  have clear : (s.taken m rest).displaced ((s.taken m rest).after step) = [] := by
    rcases s.engine.batches.complete_cases m.token with ⟨counts, -⟩ | ⟨discarded, -⟩
    · have empty : (s.taken m rest).engine.batches.outstanding = none := by
        show (s.engine.batches.complete m.token).1.outstanding = none
        rw [counts]
      simp [displaced, empty]
    · have kept : ((s.taken m rest).after step).engine.batches.nextToken =
          (s.taken m rest).engine.batches.nextToken := by
        simp [step, Session.after, Session.taken, Engine.complete, discarded]
      simp [displaced, kept]
  rw [clear, List.append_nil] at after
  exact after

end Read

end Session

end CodeTint
