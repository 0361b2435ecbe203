import CodeTint.Proofs.Engine.Retry

/-!
Batches and what wakes the engine for them. Main statement: whatever happens to a live engine, one
completion is on its way for the outstanding batch. All others that are on their way have older
tokens, and whenever one of them is read, nothing comes of it.
-/

set_option autoImplicit false
set_option relaxedAutoImplicit false

namespace CodeTint

namespace Batches

def Past (b : Batches) (token : Nat) : Prop :=
  token < b.nextToken ∧ ∀ batch, b.outstanding = some batch → batch.token ≠ token

variable {b : Batches} {token : Nat}

private theorem Past.issues {step : EngineStep} (past : b.Past token) (issues : b.Issues step) :
    step.engine.batches.Past token := by
  obtain ⟨old, other⟩ := past
  rcases issues with ⟨-, same⟩ | ⟨batch, -, new, issued⟩
  · rw [same]
    exact ⟨old, other⟩
  · rw [issued]
    refine ⟨Nat.lt_succ_of_lt old, fun latest outstanding => ?_⟩
    obtain rfl := Option.some.inj outstanding
    rw [new]
    exact Nat.ne_of_gt old

private theorem Past.complete (past : b.Past token) (answered : Nat) :
    (b.complete answered).1.Past token := by
  rcases b.complete_cases answered with ⟨counts, -⟩ | ⟨discarded, -⟩
  · rw [counts]
    exact ⟨past.1, fun _ outstanding => nomatch outstanding⟩
  · rw [discarded]
    exact past

private theorem Past.stale (past : b.Past token) : b.complete token = (b, .stale) := by
  rcases b.complete_cases token with ⟨-, batch, outstanding, own⟩ | ⟨discarded, -⟩
  · exact absurd own (past.2 batch outstanding)
  · exact discarded

end Batches

namespace Session

/-- The outstanding batch has a completion on its way, and no other one on its way is newer. -/
structure Answered (s : Session) : Prop extends Numbered s where
  owed : ∀ batch, s.engine.batches.outstanding = some batch → batch.token ∈ s.tokens
  newest : ∀ batch, s.engine.batches.outstanding = some batch →
    ∀ token ∈ s.tokens, token ≤ batch.token

variable {s s' : Session}

private theorem answered_start (config : Config) (version : Nat) :
    ({ engine := .start config version } : Session).Answered where
  live := rfl
  distinct := List.nodup_nil
  issued _ member := absurd member List.not_mem_nil
  owed _ outstanding := nomatch outstanding
  newest _ outstanding := nomatch outstanding

private theorem Answered.congr (answered : s.Answered) (same : s'.tokens.Perm s.tokens)
    (books : s'.engine.batches = s.engine.batches) : s'.Answered where
  toNumbered := answered.toNumbered.congr same books
  owed batch outstanding := by
    rw [books] at outstanding
    exact same.mem_iff.mpr (answered.owed batch outstanding)
  newest batch outstanding token member := by
    rw [books] at outstanding
    exact answered.newest batch outstanding token (same.mem_iff.mp member)

private theorem Answered.after {step : EngineStep} (answered : s.Answered)
    (issues : s.engine.batches.Issues step) : (s.after step).Answered := by
  have numbered := answered.toNumbered.after issues
  have all := s.tokens_after step
  rcases issues with ⟨quiet, same⟩ | ⟨batch, given, token, issued⟩
  · rw [quiet] at all
    exact answered.congr all same
  · have own : (s.after step).engine.batches.outstanding = some batch :=
      congrArg Batches.outstanding issued
    rw [given, Option.map_some, Option.toList_some, List.singleton_append] at all
    refine ⟨numbered, fun latest outstanding => ?_, fun latest outstanding used member => ?_⟩
    all_goals
      rw [own] at outstanding
      obtain rfl := Option.some.inj outstanding
    · exact all.mem_iff.mpr List.mem_cons_self
    · rcases List.mem_cons.mp (all.mem_iff.mp member) with rfl | earlier
      · exact Nat.le_refl _
      · rw [token]
        exact Nat.le_of_lt (answered.issued used earlier)

/-- A completion that is taken is that of the outstanding batch, which it retires, or leaves the one
of that batch on its way. -/
theorem Answered.taken {m : CompletionMessage} {rest : List CompletionMessage}
    (answered : s.Answered) (waiting : s.mailbox = m :: rest) : (s.taken m rest).Answered := by
  have numbered := (answered.toNumbered.taken waiting).1
  have all := tokens_taken waiting
  rcases s.engine.batches.complete_cases m.token with ⟨counts, -⟩ | ⟨discarded, other⟩
  · have none : (s.taken m rest).engine.batches.outstanding = none := by
      show (s.engine.batches.complete m.token).1.outstanding = none
      rw [counts]
    refine ⟨numbered, fun batch outstanding => ?_, fun batch outstanding => ?_⟩
    all_goals
      rw [none] at outstanding
      cases outstanding
  · have books : (s.taken m rest).engine.batches = s.engine.batches :=
      congrArg Prod.fst discarded
    refine ⟨numbered, fun batch outstanding => ?_, fun batch outstanding token member => ?_⟩
    all_goals rw [books] at outstanding
    · have owed := all.mem_iff.mp (answered.owed batch outstanding)
      exact (List.mem_cons.mp owed).resolve_left (other answered.live batch outstanding)
    · have old := all.mem_iff.mpr (List.mem_cons_of_mem _ member)
      exact answered.newest batch outstanding token old

private theorem answered_live (answered : s.Answered) (l : Loader) (event : LiveEvent) :
    (s.live l event).Answered := by
  rcases s.live_cases l event with ⟨books, same⟩ | ⟨step, issues, next⟩ |
    ⟨m, rest, step, waiting, issues, next⟩
  · exact answered.congr same books
  · rw [next]
    exact answered.after issues
  · rw [next]
    exact (answered.taken waiting).after issues

private theorem past_live {token : Nat} (past : s.engine.batches.Past token) (l : Loader)
    (event : LiveEvent) : (s.live l event).engine.batches.Past token := by
  rcases s.live_cases l event with ⟨books, -⟩ | ⟨step, issues, next⟩ |
    ⟨m, rest, step, -, issues, next⟩
  · rw [books]
    exact past
  · rw [next]
    exact past.issues issues
  · rw [next]
    exact (past.complete m.token).issues issues

private theorem live_read_of_past {m : CompletionMessage} {rest : List CompletionMessage}
    (waiting : s.mailbox = m :: rest) (past : s.engine.batches.Past m.token) (l : Loader) :
    s.live l .read = { s with mailbox := rest } := by
  simp [live, waiting, Session.read, Engine.complete, past.stale, Session.after]

end Session

namespace LoggedSession

variable {l : Loader} {w : LoggedSession}

private theorem Reached.answered (reached : Reached l w) : w.session.Answered := by
  induction reached with
  | start config version => exact Session.answered_start config version
  | step _ _ ih => exact Session.answered_live ih l _

private theorem past_foldl {token : Nat} (past : w.session.engine.batches.Past token)
    (events : List LiveEvent) :
    (events.foldl (LoggedSession.step l) w).session.engine.batches.Past token := by
  induction events generalizing w with
  | nil => exact past
  | cons event rest ih => exact ih (Session.past_live past l event)

/-- In a live engine the outstanding batch is answered by one completion on its way, which is a task
or a message. The others on their way have lower tokens; whatever happens until one of them is read,
it is taken from the mailbox and nothing else changes. -/
theorem answered_once (reached : Reached l w) :
    (∀ batch, w.session.engine.batches.outstanding = some batch →
      w.session.tokens.count batch.token = 1 ∧
      ∀ token ∈ w.session.tokens, token ≠ batch.token → token < batch.token) ∧
    ∀ token ∈ w.session.tokens,
      (∀ batch, w.session.engine.batches.outstanding = some batch → batch.token ≠ token) →
      ∀ later : LoggedSession,
        (∃ events : List LiveEvent, events.foldl (LoggedSession.step l) w = later) →
        ∀ m rest, later.session.mailbox = m :: rest → m.token = token →
          (later.step l .read).session = { later.session with mailbox := rest } := by
  have answered := reached.answered
  constructor
  · intro batch outstanding
    have owed := answered.owed batch outstanding
    refine ⟨List.count_eq_one_of_mem answered.distinct owed, fun token member other => ?_⟩
    exact lt_of_le_of_ne (answered.newest batch outstanding token member) other
  · rintro token member other later ⟨events, rfl⟩ m rest waiting rfl
    -- What is past stays past, so that it does not matter when the completion is read.
    have past : w.session.engine.batches.Past m.token := ⟨answered.issued _ member, other⟩
    exact Session.live_read_of_past waiting (past_foldl past events) l

/-! A run in which the theme of a document is loaded, but the next edit comes before its completion
is read, and asks for the grammar. -/

namespace Turns

open WatchedSession.LostTheme (grammarKey themeKey theme loader edit engine)

/-- The theme is loaded, which is not read yet, and the grammar is being loaded again. -/
def overtaken : LoggedSession where
  session := WatchedSession.LostTheme.displaced.session
  log :=
    { started :=
        [⟨0, grammarKey, 0⟩, ⟨1, themeKey, 0⟩, ⟨2, themeKey, 0⟩, ⟨3, grammarKey, 0⟩]
      ended :=
        [⟨⟨2, themeKey, 0⟩, 130, .ok (.theme theme)⟩, ⟨⟨0, grammarKey, 0⟩, 65, .error .crashed⟩,
          ⟨⟨1, themeKey, 0⟩, 0, .error .crashed⟩] }

private theorem reached_overtaken : Reached loader overtaken := by
  let events : List LiveEvent :=
    [.cache (.finish 130 ⟨2, themeKey, 0⟩ (.ok (.theme theme))), .post fun _ => true,
      .sleep 65, .apply edit, .begin 3]
  have possible : Possible loader retried events :=
    ⟨⟨List.mem_cons_self, rfl⟩, trivial, trivial, trivial, trivial, trivial⟩
  have same : events.foldl (LoggedSession.step loader) retried = overtaken := by cbv
  have next := reached_retried.run events possible
  rwa [same] at next

theorem answered_once_overtaken : Reached loader overtaken ∧
    overtaken.session.engine.batches.outstanding = some ⟨3, [grammarKey], 1⟩ ∧
    overtaken.session.tokens = [3, 2] ∧
    (∀ batch, overtaken.session.engine.batches.outstanding = some batch →
      overtaken.session.tokens.count batch.token = 1 ∧
      ∀ token ∈ overtaken.session.tokens, token ≠ batch.token → token < batch.token) ∧
    ∀ token ∈ overtaken.session.tokens,
      (∀ batch, overtaken.session.engine.batches.outstanding = some batch →
        batch.token ≠ token) →
      ∀ later : LoggedSession,
        (∃ events : List LiveEvent, events.foldl (LoggedSession.step loader) overtaken = later) →
        ∀ m rest, later.session.mailbox = m :: rest → m.token = token →
          (later.step loader .read).session = { later.session with mailbox := rest } :=
  ⟨reached_overtaken, rfl, rfl, answered_once reached_overtaken⟩

end Turns

end LoggedSession

end CodeTint
