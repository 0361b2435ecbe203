import CodeTint.Proofs.Engine.Booking

/-!
The tokens of batches. Calls that ask for batches, report completions and end it all come in any
order, and each is answered. Main statement: tokens are issued in increasing order, and a
completion counts just if its token is the one issued last, has not counted before, and it is not
all over.
-/

set_option autoImplicit false
set_option relaxedAutoImplicit false

namespace CodeTint

/-- A call to the batches of an engine. -/
inductive BatchCall where
  | sync (d : Document) (c : Cache) (l : Loader) (config : Config) (now : Nat)
      (skip : List ResourceKey)
  | complete (token : Nat)
  | teardown

inductive BatchAnswer where
  | synced (batch : Option Batch)
  | completed (token : Nat) (completion : Completion)
  | tornDown

namespace BatchAnswer

/-- The tokens of the batches that were issued. -/
def issued (past : List BatchAnswer) : List Nat :=
  past.filterMap fun
    | synced batch => batch.map (·.token)
    | _ => none

/-- The tokens whose completion counted. -/
def honoured (past : List BatchAnswer) : List Nat :=
  past.filterMap fun
    | completed token .current => some token
    | _ => none

private theorem issued_append (past more : List BatchAnswer) :
    issued (past ++ more) = issued past ++ issued more := List.filterMap_append

private theorem honoured_append (past more : List BatchAnswer) :
    honoured (past ++ more) = honoured past ++ honoured more := List.filterMap_append

private theorem issued_concat {next : BatchAnswer} (none : issued [next] = [])
    (past : List BatchAnswer) : issued (past ++ [next]) = issued past := by
  rw [issued_append, none, List.append_nil]

private theorem honoured_concat {next : BatchAnswer} (never : honoured [next] = [])
    (past : List BatchAnswer) : honoured (past ++ [next]) = honoured past := by
  rw [honoured_append, never, List.append_nil]

end BatchAnswer

namespace Batches

open BatchAnswer (issued honoured)

def answer (b : Batches) : BatchCall → Batches × BatchAnswer
  | .sync d c l config now skip =>
    let (b, batch) := b.sync d c l config now skip
    (b, .synced batch)
  | .complete token =>
    let (b, completion) := b.complete token
    (b, .completed token completion)
  | .teardown => (b.teardown, .tornDown)

/-- Calls one after another, with their answers. -/
def answerAll (b : Batches) : List BatchCall → Batches × List BatchAnswer
  | [] => (b, [])
  | call :: rest =>
    let (b, first) := b.answer call
    let (b, more) := b.answerAll rest
    (b, first :: more)

/-- Batches agree with the calls that were answered. -/
structure Recorded (b : Batches) (past : List BatchAnswer) : Prop where
  increasing : (issued past).Pairwise (· < ·)
  used : ∀ token ∈ issued past, token < b.nextToken
  once : (honoured past).Nodup
  own : honoured past ⊆ issued past
  ended : b.tornDown = true ↔ .tornDown ∈ past
  /-- The batch that is outstanding is the last one, until its completion counts. -/
  outstanding : ∀ token, b.outstanding.map (·.token) = some token ↔
    (issued past).getLast? = some token ∧ token ∉ honoured past ∧ .tornDown ∉ past

variable {b : Batches} {past : List BatchAnswer}

private theorem recorded_start (retryAfter : Nat) : (start retryAfter).Recorded [] := by
  refine ⟨.nil, ?_, .nil, ?_, ?_, ?_⟩ <;> simp [start, issued, honoured]

private theorem complete_eq_current_iff (recorded : b.Recorded past) {token : Nat} :
    (b.complete token).2 = .current ↔ (issued past).getLast? = some token ∧
      token ∉ honoured past ∧ .tornDown ∉ past := by
  rw [← recorded.outstanding]
  constructor
  · intro counts
    rcases b.complete_cases token with ⟨-, batch, own, same⟩ | ⟨discarded, -⟩
    · rw [own, Option.map_some, same]
    · rw [discarded] at counts
      cases counts
  · intro own
    obtain ⟨batch, outstanding, same⟩ := Option.map_eq_some_iff.mp own
    have live : b.tornDown = false := by
      rw [← Bool.not_eq_true, recorded.ended]
      exact ((recorded.outstanding token).mp own).2.2
    rcases b.complete_cases token with ⟨counts, -⟩ | ⟨-, other⟩
    · rw [counts]
    · exact absurd same (other live batch outstanding)

private theorem Recorded.skip (recorded : b.Recorded past) {next : BatchAnswer}
    (none : issued [next] = []) (never : honoured [next] = []) (going : next ≠ .tornDown) :
    b.Recorded (past ++ [next]) := by
  have kept : BatchAnswer.tornDown ∈ past ++ [next] ↔ .tornDown ∈ past := by
    simp [going.symm]
  refine ⟨?_, ?_, ?_, ?_, ?_, ?_⟩ <;>
    simp only [BatchAnswer.issued_concat none, BatchAnswer.honoured_concat never, kept]
  · exact recorded.increasing
  · exact recorded.used
  · exact recorded.once
  · exact recorded.own
  · exact recorded.ended
  · exact recorded.outstanding

private theorem Recorded.issue (recorded : b.Recorded past) (live : b.tornDown = false)
    {batch : Batch}
    (token : batch.token = b.nextToken) :
    ({ b with nextToken := b.nextToken + 1, outstanding := some batch } : Batches).Recorded
      (past ++ [.synced (some batch)]) := by
  have tokens : issued (past ++ [.synced (some batch)]) = issued past ++ [b.nextToken] := by
    rw [BatchAnswer.issued_append, ← token]
    rfl
  have same : honoured (past ++ [.synced (some batch)]) = honoured past :=
    BatchAnswer.honoured_concat rfl past
  have running : BatchAnswer.tornDown ∉ past := by
    rw [← recorded.ended, live]
    exact Bool.false_ne_true
  have fresh : b.nextToken ∉ honoured past :=
    fun member => Nat.lt_irrefl _ (recorded.used _ (recorded.own member))
  refine ⟨?_, ?_, ?_, ?_, ?_, ?_⟩
  · rw [tokens, List.pairwise_append]
    refine ⟨recorded.increasing, List.pairwise_singleton _ _, ?_⟩
    intro earlier member later last
    rw [List.mem_singleton.mp last]
    exact recorded.used earlier member
  · intro used member
    rw [tokens] at member
    rcases List.mem_append.mp member with old | new
    · exact Nat.lt_succ_of_lt (recorded.used used old)
    · rw [List.mem_singleton.mp new]
      exact Nat.lt_succ_self _
  · rw [same]
    exact recorded.once
  · rw [same, tokens]
    exact fun used member => List.mem_append_left _ (recorded.own member)
  · simp [live, running]
  · intro own
    rw [tokens, same, List.getLast?_append, Option.map_some, token]
    simp only [List.getLast?_singleton, Option.some_or, Option.some.injEq, List.mem_append,
      List.mem_singleton, running, reduceCtorEq, or_self, not_false_iff, and_true]
    constructor
    · rintro rfl
      exact ⟨rfl, fresh⟩
    · exact And.left

private theorem Recorded.honour (recorded : b.Recorded past) {token : Nat}
    (counts : (b.complete token).2 = .current) : ({ b with outstanding := none } : Batches).Recorded
      (past ++ [.completed token .current]) := by
  obtain ⟨last, unused, running⟩ := (complete_eq_current_iff recorded).mp counts
  have tokens : issued (past ++ [.completed token .current]) = issued past :=
    BatchAnswer.issued_concat rfl past
  have more : honoured (past ++ [.completed token .current]) = honoured past ++ [token] :=
    BatchAnswer.honoured_append _ _
  have issuedOwn : token ∈ issued past := List.mem_of_getLast? last
  refine ⟨?_, ?_, ?_, ?_, ?_, ?_⟩
  · rw [tokens]
    exact recorded.increasing
  · rw [tokens]
    exact recorded.used
  · rw [more, List.nodup_append]
    refine ⟨recorded.once, List.nodup_singleton _, ?_⟩
    intro used member own new same
    rw [same, List.mem_singleton.mp new] at member
    exact unused member
  · rw [more, tokens]
    intro used member
    rcases List.mem_append.mp member with old | new
    · exact recorded.own old
    · rw [List.mem_singleton.mp new]
      exact issuedOwn
  · simpa using recorded.ended
  · intro other
    rw [tokens, more, last]
    simp only [Option.map_none, reduceCtorEq, Option.some.injEq, List.mem_append,
      List.mem_singleton, false_iff, not_and]
    rintro rfl fresh
    exact absurd (.inr rfl) fresh

private theorem Recorded.teardown (recorded : b.Recorded past) :
    b.teardown.Recorded (past ++ [.tornDown]) := by
  have tokens : issued (past ++ [.tornDown]) = issued past := BatchAnswer.issued_concat rfl past
  have same : honoured (past ++ [.tornDown]) = honoured past := BatchAnswer.honoured_concat rfl past
  refine ⟨?_, ?_, ?_, ?_, ?_, ?_⟩
  · rw [tokens]
    exact recorded.increasing
  · rw [tokens]
    exact recorded.used
  · rw [same]
    exact recorded.once
  · rw [same, tokens]
    exact recorded.own
  · simp [Batches.teardown]
  · simp [Batches.teardown]

private theorem sync_of_tornDown (torn : b.tornDown = true) (d : Document) (c : Cache) (l : Loader)
    (config : Config) (now : Nat) (skip : List ResourceKey) :
    b.sync d c l config now skip = (b, none) := by
  rw [sync, if_pos torn]

private theorem Recorded.answer (recorded : b.Recorded past) (call : BatchCall) :
    (b.answer call).1.Recorded (past ++ [(b.answer call).2]) := by
  cases call with
  | sync d c l config now skip =>
    simp only [Batches.answer]
    rcases b.sync_cases d c l config now skip with none | ⟨batch, token, issued⟩
    · rw [none]
      exact recorded.skip rfl rfl (by simp)
    · have live : b.tornDown = false := by
        rw [← Bool.not_eq_true]
        intro torn
        rw [sync_of_tornDown torn] at issued
        exact absurd (congrArg Prod.snd issued) (by simp)
      rw [issued]
      exact recorded.issue live token
  | complete token =>
    simp only [Batches.answer]
    rcases b.complete_cases token with ⟨counts, -⟩ | ⟨discarded, -⟩
    · have current : (b.complete token).2 = .current := by rw [counts]
      rw [counts]
      exact recorded.honour current
    · rw [discarded]
      exact recorded.skip rfl rfl (by simp)
  | teardown => exact recorded.teardown

private theorem Recorded.answerAll (recorded : b.Recorded past) (calls : List BatchCall) :
    (b.answerAll calls).1.Recorded (past ++ (b.answerAll calls).2) := by
  induction calls generalizing b past with
  | nil =>
    rw [Batches.answerAll, List.append_nil]
    exact recorded
  | cons call rest ih =>
    have later := ih (recorded.answer call)
    rw [List.append_assoc] at later
    exact later

/-- What tokens are worth after the calls that were answered so far. -/
structure Honest (b : Batches) (past : List BatchAnswer) : Prop where
  increasing : (issued past).Pairwise (· < ·)
  current : ∀ token, (b.complete token).2 = .current ↔
    (issued past).getLast? = some token ∧ token ∉ honoured past ∧ .tornDown ∉ past
  once : (honoured past).Nodup
  /-- The completion of a batch that was superseded does not count. -/
  superseded : ∀ token ∈ (issued past).dropLast, (b.complete token).2 = .stale
  ended : .tornDown ∈ past → b.outstanding = none ∧
    ∀ d c l config now skip, (b.sync d c l config now skip).2 = none
  /-- Until then, what is missing and not skipped is asked for by the batch that is outstanding. -/
  asked : .tornDown ∉ past → ∀ d c l config now skip, ∀ key ∈ b.missing d c l config now,
    key ∉ skip → ∃ batch, (b.sync d c l config now skip).1.outstanding = some batch ∧
      key ∈ batch.keys

/-- Whatever calls come in whatever order, tokens are issued in increasing order, and a completion
counts just if its token is the one issued last, has not counted before, and it is not all over. -/
theorem answerAll_honest (retryAfter : Nat) (calls : List BatchCall) :
    ((start retryAfter).answerAll calls).1.Honest ((start retryAfter).answerAll calls).2 := by
  have recorded := (recorded_start retryAfter).answerAll calls
  rw [List.nil_append] at recorded
  generalize (start retryAfter).answerAll calls = run at recorded ⊢
  obtain ⟨b, past⟩ := run
  refine ⟨recorded.increasing, fun token => complete_eq_current_iff recorded, recorded.once, ?_, ?_,
    ?_⟩
  · intro token early
    rcases b.complete_cases token with ⟨counts, -⟩ | ⟨discarded, -⟩
    · -- A token before the last one is smaller than it.
      have current : (b.complete token).2 = .current := by rw [counts]
      obtain ⟨last, -⟩ := (complete_eq_current_iff recorded).mp current
      obtain ⟨front, tokens⟩ := List.getLast?_eq_some_iff.mp last
      have increasing := recorded.increasing
      rw [tokens] at early increasing
      rw [List.dropLast_concat] at early
      have less := (List.pairwise_append.mp increasing).2.2 token early token List.mem_cons_self
      exact absurd less (Nat.lt_irrefl _)
    · rw [discarded]
  · intro ended
    have torn := recorded.ended.mpr ended
    refine ⟨?_, fun d c l config now skip => by rw [sync_of_tornDown torn]⟩
    cases outstanding : b.outstanding with
    | none => rfl
    | some batch =>
      have own : b.outstanding.map (·.token) = some batch.token := by rw [outstanding]; rfl
      exact absurd ended ((recorded.outstanding _).mp own).2.2
  · intro going d c l config now skip key missing kept
    have live : b.tornDown = false := by
      rw [← Bool.not_eq_true, recorded.ended]
      exact going
    exact mem_outstanding_sync live missing kept

end Batches

end CodeTint
