import CodeTint.Proofs.Engine.Quiescence
import CodeTint.Proofs.Resource.History

/-!
When a resource that failed to load is asked for again. Main statement: no batch asks for a key
before the time to leave it alone has passed since its last load failed. A batch that answers a
completion leaves out the keys that this completion reports as failed, and only these: a key that
failed in another batch is asked for again by it, without any edit, once that time has passed.
-/

set_option autoImplicit false
set_option relaxedAutoImplicit false

namespace CodeTint

/-- What happens to a live engine. Its cache may serve others too, and may be reset. -/
inductive LiveEvent where
  | init (d : Document)
  | apply (t : Transaction)
  | begin (token : Nat)
  | post (due : BatchTask → Bool)
  | read
  | sleep (milliseconds : Nat)
  | cache (event : CacheEvent)

namespace Session

def live (s : Session) (l : Loader) : LiveEvent → Session
  | .init d => s.init l d
  | .apply t => s.apply l t
  | .begin token => s.begin token
  | .post due => s.postWhere due
  | .read =>
    match s.mailbox with
    | [] => s
    | m :: rest => (({ s with mailbox := rest } : Session).read l m).1
  | .sleep milliseconds => s.sleep milliseconds
  | .cache event => { s with cache := s.cache.after event }

/-- What an event does to batches and completions: it leaves them as they are, up to where the
completions are; or the engine asks for what is missing, maybe after it has taken a completion. -/
theorem live_cases (s : Session) (l : Loader) (event : LiveEvent) :
    ((s.live l event).engine.batches = s.engine.batches ∧
      (s.live l event).tokens.Perm s.tokens) ∨
    (∃ step, s.engine.batches.Issues step ∧ s.live l event = s.after step) ∨
    ∃ m rest step, s.mailbox = m :: rest ∧ (s.taken m rest).engine.batches.Issues step ∧
      s.live l event = (s.taken m rest).after step := by
  cases event with
  | init d => exact .inr (.inl ⟨_, Engine.issues_init s.engine (s.surroundings l) d, rfl⟩)
  | apply t => exact .inr (.inl ⟨_, Engine.issues_apply s.engine (s.surroundings l) t, rfl⟩)
  | begin token =>
    have tokens : (s.begin token).tokens.Perm s.tokens := List.Perm.of_eq (s.tokens_begin token)
    refine .inl ⟨?_, tokens⟩
    show (s.begin token).engine.batches = _
    rcases s.begin_cases token with same | ⟨task, -, -, -, begun⟩
    · rw [same]
    · rw [begun]
  | post due => exact .inl ⟨rfl, s.tokens_postWhere due⟩
  | read =>
    cases waiting : s.mailbox with
    | nil =>
      have same : s.live l .read = s := by simp only [live, waiting]
      rw [same]
      exact .inl ⟨rfl, List.Perm.refl _⟩
    | cons m rest =>
      refine .inr (.inr ⟨m, rest, _, rfl,
        Engine.issues_complete s.engine (s.surroundings l) m.token m.report, ?_⟩)
      simp only [live, waiting]
      rfl
  | sleep milliseconds => exact .inl ⟨rfl, List.Perm.refl _⟩
  | cache event => exact .inl ⟨rfl, List.Perm.refl _⟩

/-- The batch that an event has the engine issue. -/
def issuedBy (s : Session) (l : Loader) : LiveEvent → Option Batch
  | .init d => (s.engine.init (s.surroundings l) d).batch
  | .apply t => (s.engine.apply (s.surroundings l) t).batch
  | .read =>
    match s.mailbox with
    | [] => none
    | m :: _ => (s.engine.complete (s.surroundings l) m.token m.report).batch
  | _ => none

def cacheEvent? (s : Session) : LiveEvent → Option CacheEvent
  | .begin token =>
    (s.tasks.find? fun t => t.batch.token = token && t.request.isNone).map
      fun task => .request task.batch.keys
  | .cache event => some event
  | _ => none

private theorem cache_live (s : Session) (l : Loader) (event : LiveEvent) :
    (s.live l event).cache = ((s.cacheEvent? event).map s.cache.after).getD s.cache := by
  cases event with
  | begin token =>
    simp only [live, Session.begin, cacheEvent?]
    cases s.tasks.find? fun t => t.batch.token = token && t.request.isNone <;> rfl
  | read =>
    simp only [live]
    cases s.mailbox <;> rfl
  | _ => rfl

end Session

/-- Loads end that run, at the time it is. -/
def LiveEvent.Allowed (s : Session) : LiveEvent → Prop
  | .cache (.finish now load _) => load ∈ s.cache.running ∧ now = s.now
  | _ => True

/-- A session with the log of the loads of its cache. -/
structure LoggedSession where
  session : Session
  log : LoadLog := {}

namespace LoggedSession

def step (l : Loader) (w : LoggedSession) (event : LiveEvent) : LoggedSession where
  session := w.session.live l event
  log := ((w.session.cacheEvent? event).map (w.log.note w.session.cache)).getD w.log

/-- What a new engine comes to by events in any order. -/
inductive Reached (l : Loader) : LoggedSession → Prop
  | start (config : Config) (version : Nat) :
      Reached l { session := { engine := .start config version } }
  | step {w : LoggedSession} (reached : Reached l w) {event : LiveEvent}
      (allowed : event.Allowed w.session) : Reached l (w.step l event)

/-- Events one after another, each of which can happen where it comes. -/
def Possible (l : Loader) : LoggedSession → List LiveEvent → Prop
  | _, [] => True
  | w, event :: rest => event.Allowed w.session ∧ Possible l (w.step l event) rest

variable {l : Loader} {w : LoggedSession}

theorem Reached.run (reached : Reached l w) (events : List LiveEvent)
    (possible : Possible l w events) : Reached l (events.foldl (LoggedSession.step l) w) := by
  induction events generalizing w with
  | nil => exact reached
  | cons event rest ih => exact ih (reached.step possible.1) possible.2

private theorem Reached.fits (reached : Reached l w) : w.log.Fits w.session.cache := by
  induction reached with
  | start => exact LoadLog.fits_empty
  | @step w _ event allowed ih =>
    rw [LoggedSession.step, Session.cache_live]
    cases happens : w.session.cacheEvent? event with
    | none => exact ih
    | some e =>
      refine ih.note ?_
      cases event with
      | begin token =>
        obtain ⟨task, -, rfl⟩ := Option.map_eq_some_iff.mp happens
        trivial
      | cache own =>
        obtain rfl := Option.some.inj happens
        cases own with
        | finish now load result => exact allowed.1
        | _ => trivial
      | _ => cases happens

end LoggedSession

namespace Batches

variable {b : Batches} {d : Document} {c : Cache} {l : Loader} {config : Config} {now : Nat}
  {skip : List ResourceKey} {key : ResourceKey}

private theorem mem_sync_iff (live : b.tornDown = false) (empty : b.outstanding = none) :
    (∃ batch, (b.sync d c l config now skip).2 = some batch ∧ key ∈ batch.keys) ↔
      key ∈ b.missing d c l config now ∧ key ∉ skip := by
  constructor
  · rintro ⟨batch, issued, member⟩
    exact mem_of_sync issued member
  · rintro ⟨missing, kept⟩
    obtain ⟨batch, outstanding, member⟩ := mem_outstanding_sync live missing kept
    rcases b.sync_cases d c l config now skip with none | ⟨issued, -, step⟩
    · rw [none, empty] at outstanding
      cases outstanding
    · rw [step] at outstanding ⊢
      obtain rfl := Option.some.inj outstanding
      exact ⟨issued, rfl, member⟩

private theorem mem_missing_iff {failure : LoadFailure} (unloaded : c.contains key = false)
    (failed : c.failure? key = some failure) : key ∈ b.missing d c l config now ↔
      key ∈ d.wanted config ∧ l.knows key = true ∧ b.retryAfter ≤ now - failure.failedAt := by
  simp [missing, backsOff, unloaded, failed, List.mem_filter]

end Batches

/-- A completion that counts is answered by a batch for what is missing, less what it reports as
failed; another one by none. -/
theorem Engine.batch_complete (e : Engine) (s : Surroundings) (token : Nat) (report : LoadReport) :
    (e.complete s token report).batch =
      match e.batches.complete token with
      | (_, .stale) => none
      | (batches, .current) => (batches.sync e.document s.cache s.loader e.config s.now
          (report.failed.map (·.1))).2 := by
  cases completed : e.batches.complete token with
  | mk batches completion =>
    cases completion with
    | stale => simp only [complete, completed]
    | current =>
      cases loaded : report.loaded.isEmpty <;>
        simp [complete, completed, loaded, requestMissing, recompute]

namespace LoggedSession

variable {l : Loader} {w : LoggedSession}

private theorem Reached.live (reached : Reached l w) :
    w.session.engine.batches.tornDown = false := by
  induction reached with
  | start => rfl
  | @step w _ event _ ih =>
    rw [← ih]
    rcases w.session.live_cases l event with ⟨same, -⟩ | ⟨step, issues, next⟩ |
      ⟨m, rest, step, -, issues, next⟩
    · exact congrArg Batches.tornDown same
    · rw [LoggedSession.step, next]
      exact Batches.tornDown_of_issues issues
    · rw [LoggedSession.step, next]
      exact (Batches.tornDown_of_issues issues).trans (Batches.tornDown_complete _ m.token)

/-- Of the loads of a key since the last reset, the one that ended last has failed. -/
def Failed (w : LoggedSession) (key : ResourceKey) (e : LoadEnd) : Prop :=
  w.log.lastEnd? key = some e ∧ e.failure?.isSome = true

/-- The time since the last load of a key failed is enough to ask for it again. -/
def Rested (w : LoggedSession) (e : LoadEnd) : Prop :=
  w.session.engine.batches.retryAfter ≤ w.session.now - e.time

private theorem Reached.failure (reached : Reached l w) {key : ResourceKey} {e : LoadEnd}
    (failed : w.Failed key e) : w.session.cache.contains key = false ∧
      ∃ failure, w.session.cache.failure? key = some failure ∧ failure.failedAt = e.time := by
  have fits := reached.fits
  obtain ⟨last, failed⟩ := failed
  have unloaded := fits.loaded key
  have known := fits.failures key
  rw [last] at unloaded known
  cases gave : e.yield with
  | ok resource => simp [LoadEnd.failure?, gave] at failed
  | error error =>
    have none : e.loaded? = none := by simp [LoadEnd.loaded?, gave]
    have some : e.failure? = some ⟨e.time, error⟩ := by simp [LoadEnd.failure?, gave]
    refine ⟨?_, ⟨e.time, error⟩, known.trans some, rfl⟩
    simp [Cache.contains, unloaded, none]

private theorem Reached.rested (reached : Reached l w) {key : ResourceKey} {e : LoadEnd}
    (failed : w.Failed key e) {b : Batches}
    (same : b.retryAfter = w.session.engine.batches.retryAfter) {d : Document} {config : Config}
    (missing : key ∈ b.missing d w.session.cache l config w.session.now) : w.Rested e := by
  obtain ⟨unloaded, failure, known, time⟩ := reached.failure failed
  have long := ((Batches.mem_missing_iff unloaded known).mp missing).2.2
  rwa [time, same] at long

private theorem Reached.rested_of_issuedBy (reached : Reached l w) {key : ResourceKey} {e : LoadEnd}
    (failed : w.Failed key e) {event : LiveEvent} {batch : Batch}
    (issued : w.session.issuedBy l event = some batch) (member : key ∈ batch.keys) :
    w.Rested e := by
  cases event with
  | init d => exact reached.rested failed rfl (Batches.mem_of_sync issued member).1
  | apply t =>
    have batches := (Engine.document_follow w.session.engine (w.session.surroundings l) t).2.2.1
    exact reached.rested failed (congrArg Batches.retryAfter batches)
      (Batches.mem_of_sync issued member).1
  | read =>
    cases waiting : w.session.mailbox with
    | nil => simp [Session.issuedBy, waiting] at issued
    | cons m rest =>
      simp only [Session.issuedBy, waiting, Engine.batch_complete] at issued
      rcases w.session.engine.batches.complete_cases m.token with ⟨counts, -⟩ | ⟨discarded, -⟩
      · rw [counts] at issued
        exact reached.rested failed rfl (Batches.mem_of_sync issued member).1
      · rw [discarded] at issued
        cases issued
  | _ => cases issued

/-- A key whose last load failed is asked for again only when it has rested. The completion of a
batch asks for it if the batch is the outstanding one, the document needs the key, the loader knows
it, and the completion does not report it as failed itself. -/
theorem requested_again_iff (reached : Reached l w) {key : ResourceKey} {e : LoadEnd}
    (failed : w.Failed key e) :
    (∀ event batch, w.session.issuedBy l event = some batch → key ∈ batch.keys → w.Rested e) ∧
    ∀ m rest, w.session.mailbox = m :: rest →
      ((∃ batch, w.session.issuedBy l .read = some batch ∧ key ∈ batch.keys) ↔
        (w.session.engine.batches.complete m.token).2 = .current ∧
        key ∈ w.session.engine.document.wanted w.session.engine.config ∧ l.knows key = true ∧
        key ∉ m.report.failed.map (·.1) ∧ w.Rested e) := by
  refine ⟨fun event batch => reached.rested_of_issuedBy failed, fun m rest waiting => ?_⟩
  obtain ⟨unloaded, failure, known, time⟩ := reached.failure failed
  simp only [Session.issuedBy, waiting, Engine.batch_complete]
  rcases w.session.engine.batches.complete_cases m.token with ⟨counts, -⟩ | ⟨discarded, -⟩
  · rw [counts]
    let retired : Batches := { w.session.engine.batches with outstanding := none }
    have live : retired.tornDown = false := reached.live
    refine (Batches.mem_sync_iff live rfl).trans ?_
    refine (and_congr_left' (Batches.mem_missing_iff unloaded known)).trans ?_
    rw [time]
    constructor
    · rintro ⟨⟨wanted, knows, long⟩, fresh⟩
      exact ⟨rfl, wanted, knows, fresh, long⟩
    · rintro ⟨-, wanted, knows, fresh, long⟩
      exact ⟨⟨wanted, knows, long⟩, fresh⟩
  · rw [discarded]
    simp

/-! A run in which two failing keys take turns. The theme and the grammar of a document fail to
load, the theme first, so that the next edit asks for the theme alone. When that fails as well, the
grammar has rested, and the completion of the theme's batch asks for it. -/

namespace Turns

open WatchedSession.LostTheme (grammarKey themeKey loader config document edit engine)

def begun : LoggedSession where
  session := WatchedSession.LostTheme.begun.session
  log := { started := [⟨0, grammarKey, 0⟩, ⟨1, themeKey, 0⟩] }

def retried : LoggedSession where
  session := WatchedSession.LostTheme.retried.session
  log :=
    { started := [⟨0, grammarKey, 0⟩, ⟨1, themeKey, 0⟩, ⟨2, themeKey, 0⟩]
      ended :=
        [⟨⟨0, grammarKey, 0⟩, 65, .error .crashed⟩, ⟨⟨1, themeKey, 0⟩, 0, .error .crashed⟩] }

/-- The theme has failed once more, which is not read yet. -/
def due : LoggedSession where
  session :=
    { engine := engine 3 (some ⟨2, [themeKey], 1⟩)
      cache :=
        { failures := [(themeKey, ⟨195, .crashed⟩), (grammarKey, ⟨65, .crashed⟩)]
          loadCount := 3
          outcomes := [(2, .error .crashed), (0, .error .crashed), (1, .error .crashed)] }
      now := 195
      mailbox := [⟨2, { failed := [(themeKey, .crashed)] }⟩] }
  log :=
    { started := [⟨0, grammarKey, 0⟩, ⟨1, themeKey, 0⟩, ⟨2, themeKey, 0⟩]
      ended :=
        [⟨⟨2, themeKey, 0⟩, 195, .error .crashed⟩, ⟨⟨0, grammarKey, 0⟩, 65, .error .crashed⟩,
          ⟨⟨1, themeKey, 0⟩, 0, .error .crashed⟩] }

def grammarEnd : LoadEnd := ⟨⟨0, grammarKey, 0⟩, 65, .error .crashed⟩

theorem reached_retried : Reached loader retried := by
  have start : Reached loader { session := { engine := .start config 0 } } := .start config 0
  let first : List LiveEvent := [.init document, .begin 1]
  let second : List LiveEvent :=
    [.cache (.finish 0 ⟨1, themeKey, 0⟩ (.error .crashed)), .sleep 65,
      .cache (.finish 65 ⟨0, grammarKey, 0⟩ (.error .crashed)), .post fun _ => true, .read,
      .sleep 65, .apply edit, .begin 2]
  have possible : Possible loader begun second :=
    ⟨⟨List.mem_cons_of_mem _ List.mem_cons_self, rfl⟩, trivial, ⟨List.mem_cons_self, rfl⟩, trivial,
      trivial, trivial, trivial, trivial, trivial⟩
  have to_begun : first.foldl (LoggedSession.step loader)
      { session := { engine := .start config 0 } } = begun := by cbv
  have to_retried : second.foldl (LoggedSession.step loader) begun = retried := by cbv
  have reached_begun := start.run first ⟨trivial, trivial, trivial⟩
  rw [to_begun] at reached_begun
  have next := reached_begun.run second possible
  rwa [to_retried] at next

private theorem reached_due : Reached loader due := by
  let events : List LiveEvent :=
    [.sleep 65, .cache (.finish 195 ⟨2, themeKey, 0⟩ (.error .crashed)), .post fun _ => true]
  have possible : Possible loader retried events :=
    ⟨trivial, ⟨List.mem_cons_self, rfl⟩, trivial, trivial⟩
  have same : events.foldl (LoggedSession.step loader) retried = due := by cbv
  have next := reached_retried.run events possible
  rwa [same] at next

private theorem failed_due : due.Failed grammarKey grammarEnd := ⟨rfl, rfl⟩

theorem requested_again_iff_due : Reached loader due ∧ due.Failed grammarKey grammarEnd ∧
    (∀ event batch, due.session.issuedBy loader event = some batch → grammarKey ∈ batch.keys →
      due.Rested grammarEnd) ∧
    ∀ m rest, due.session.mailbox = m :: rest →
      ((∃ batch, due.session.issuedBy loader .read = some batch ∧ grammarKey ∈ batch.keys) ↔
        (due.session.engine.batches.complete m.token).2 = .current ∧
        grammarKey ∈ due.session.engine.document.wanted due.session.engine.config ∧
        loader.knows grammarKey = true ∧ grammarKey ∉ m.report.failed.map (·.1) ∧
        due.Rested grammarEnd) :=
  ⟨reached_due, failed_due, requested_again_iff reached_due failed_due⟩

/-- The completion at hand leads to a batch that asks for a key whose last load has failed. -/
theorem due_asks_for_failed : Reached loader due ∧ due.Failed grammarKey grammarEnd ∧
    ∃ batch, due.session.issuedBy loader .read = some batch ∧ grammarKey ∈ batch.keys := by
  have issued : due.session.issuedBy loader .read = some ⟨3, [grammarKey], 1⟩ := by cbv
  exact ⟨reached_due, failed_due, _, issued, List.mem_cons_self⟩

end Turns

end LoggedSession

end CodeTint
