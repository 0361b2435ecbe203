import CodeTint.Proofs.Engine.Booking
import CodeTint.Proofs.Engine.Incremental
import Mathlib

/-!
What the decorations of a session owe to its cache, however edits, loads and completions follow one
another. Main statement: the decorations are those computed with what was loaded when they were
computed last, and whatever was loaded since then was loaded for batches that have lost their place
to newer ones. Their completions do not count, so that a session may come to rest with decorations
that leave out what is loaded.
-/

set_option autoImplicit false
set_option relaxedAutoImplicit false

namespace CodeTint

/-- What happens in a session, to its engine or in the background. -/
inductive SessionEvent where
  | init (d : Document)
  | apply (t : Transaction)
  | begin (token : Nat)
  | finish (load : Load) (result : Except LoadError Resource)
  | post (due : BatchTask → Bool)
  | read
  | sleep (milliseconds : Nat)

/-- An event that can happen: transactions are built, snapshots are those of an archive, and only
loads that run end. -/
def SessionEvent.Allowed (archive : Nat → List Node) (s : Session) : SessionEvent → Prop
  | .init d => d.In archive
  | .apply t => t.Built ∧ t.before.In archive ∧ t.after.In archive
  | .finish load _ => load ∈ s.cache.running
  | _ => True

/-- Nothing is asked for, nothing is being loaded, and nothing is left to read. -/
structure Session.Quiescent (s : Session) : Prop where
  settled : s.engine.batches.outstanding = none
  idle : s.cache.running = []
  read : s.mailbox = []

/-- A session, and what its decorations may leave out. -/
structure WatchedSession where
  session : Session
  seen : Cache := {}
  /-- The batches that have lost their place to newer ones. -/
  superseded : List Batch := []

namespace WatchedSession

/-- A new engine with a cache of its own. -/
def start (config : Config) (version : Nat) : WatchedSession :=
  { session := { engine := .start config version } }

def edited (w : WatchedSession) (session : Session) (seen : Cache) : WatchedSession :=
  { session, seen, superseded := w.superseded ++ w.session.displaced session }

/-- What an event leads to. -/
def step (l : Loader) (w : WatchedSession) : SessionEvent → WatchedSession
  | .init d => w.edited (w.session.init l d) w.session.cache
  | .apply t =>
    w.edited (w.session.apply l t) (if w.session.engine.carries t then w.seen else w.session.cache)
  | .begin token => { w with session := w.session.begin token }
  | .finish load result => { w with session := w.session.finish load result }
  | .post due => { w with session := w.session.postWhere due }
  | .read =>
    match w.session.mailbox with
    | [] => w
    | m :: rest =>
      let (session, changed) := ({ w.session with mailbox := rest } : Session).read l m
      { w with session, seen := if changed then w.session.cache else w.seen }
  | .sleep milliseconds => { w with session := w.session.sleep milliseconds }

/-- What a new session comes to by events in any order. -/
inductive Reached (l : Loader) (archive : Nat → List Node) : WatchedSession → Prop
  | start (config : Config) {version : Nat} (known : archive version = []) :
      Reached l archive (.start config version)
  | step {w : WatchedSession} (reached : Reached l archive w) {event : SessionEvent}
      (allowed : event.Allowed archive w.session) : Reached l archive (w.step l event)

/-- Events one after another, each of which can happen where it comes. -/
def Possible (l : Loader) (archive : Nat → List Node) : WatchedSession → List SessionEvent → Prop
  | _, [] => True
  | w, event :: rest => event.Allowed archive w.session ∧ Possible l archive (w.step l event) rest

private theorem Reached.run {l : Loader} {archive : Nat → List Node} {w : WatchedSession}
    (reached : Reached l archive w) (events : List SessionEvent)
    (possible : Possible l archive w events) :
    Reached l archive (events.foldl (WatchedSession.step l) w) := by
  induction events generalizing w with
  | nil => exact reached
  | cons event rest ih => exact ih (reached.step possible.1) possible.2

/-- The decorations show what was loaded when they were computed last; what was loaded since then
will be reported, or was loaded for a superseded batch. -/
structure Faithful (archive : Nat → List Node) (w : WatchedSession) : Prop where
  orderly : w.session.Orderly
  booked : w.session.Booked w.superseded
  fresh : w.session.engine.Fresh w.seen
  document : w.session.engine.document.In archive
  late : ∃ late, w.session.cache.loaded = late ++ w.seen.loaded ∧
    ∀ p ∈ late, w.session.Reporting p.1 ∨ ∃ b ∈ w.superseded, p.1 ∈ b.keys

section Faithful

variable {l : Loader} {archive : Nat → List Node} {w : WatchedSession}

private theorem faithful_start (config : Config) {version : Nat} (known : archive version = []) :
    (start config version).Faithful archive where
  orderly := Session.orderly_start config version
  booked := Session.booked_start config version
  fresh := ⟨(Document.decorate_eq ⟨[], version⟩ {} config).symm, rfl⟩
  document := known.symm
  late := ⟨[], rfl, fun _ member => absurd member List.not_mem_nil⟩

private theorem Faithful.init (faithful : w.Faithful archive) {d : Document}
    (known : d.In archive) : (w.step l (.init d)).Faithful archive where
  orderly := faithful.orderly.after
  booked := faithful.booked.after (Engine.issues_init w.session.engine _ d)
  fresh := (Engine.Fresh.recompute { w.session.engine with document := d, selection := {} }
    (w.session.surroundings l)).conclude _
  document := known
  late := ⟨[], rfl, fun _ member => absurd member List.not_mem_nil⟩

private theorem Faithful.apply (faithful : w.Faithful archive) {t : Transaction} (built : t.Built)
    (before : t.before.In archive) (after : t.after.In archive) :
    (w.step l (.apply t)).Faithful archive := by
  have orderly : (w.session.apply l t).Orderly := faithful.orderly.after
  have booked := faithful.booked.after
    (Engine.issues_apply w.session.engine (w.session.surroundings l) t)
  have document : (w.session.apply l t).engine.document.In archive := by
    show Document.In archive (w.session.engine.follow _ t).document
    rw [(Engine.document_follow _ _ t).1]
    exact after
  simp only [WatchedSession.step]
  cases along : w.session.engine.carries t with
  | true =>
    have fresh := faithful.fresh.follow (w.session.surroundings l) built
      (before.eq faithful.document) along
    obtain ⟨late, loaded, reported⟩ := faithful.late
    refine ⟨orderly, booked, fresh.conclude _, document, late, loaded, fun p member => ?_⟩
    rcases reported p member with reporting | ⟨b, past, key⟩
    · exact .inl reporting.after
    · exact .inr ⟨b, List.mem_append_left _ past, key⟩
  | false =>
    have fresh := Engine.fresh_follow along (w.session.surroundings l)
    exact ⟨orderly, booked, fresh.conclude _, document, [], rfl,
      fun _ member => absurd member List.not_mem_nil⟩

private theorem Faithful.begin (faithful : w.Faithful archive) (token : Nat) :
    (w.step l (.begin token)).Faithful archive := by
  have distinct := faithful.booked.distinct_tasks
  obtain ⟨engine, -, loaded, -, -⟩ := faithful.orderly.frame_begin token
  obtain ⟨late, old, reported⟩ := faithful.late
  refine ⟨faithful.orderly.begin distinct token, faithful.booked.begin faithful.orderly token, ?_,
    ?_, late, loaded.trans old, ?_⟩
  · show Engine.Fresh w.seen (w.session.begin token).engine
    rw [engine]
    exact faithful.fresh
  · show Document.In archive (w.session.begin token).engine.document
    rw [engine]
    exact faithful.document
  · exact fun p member => (reported p member).imp (·.begin faithful.orderly distinct token) id

private theorem Faithful.finish (faithful : w.Faithful archive) {load : Load}
    (running : load ∈ w.session.cache.running) (result : Except LoadError Resource) :
    (w.step l (.finish load result)).Faithful archive := by
  obtain ⟨late, old, reported⟩ := faithful.late
  have kept : ∀ p ∈ late, (w.session.finish load result).Reporting p.1 ∨
      ∃ b ∈ w.superseded, p.1 ∈ b.keys :=
    fun p member => (reported p member).imp (·.finish faithful.orderly running result) id
  have booked : (w.session.finish load result).Booked w.superseded :=
    ⟨faithful.booked.live, faithful.booked.distinct, faithful.booked.issued,
      faithful.booked.tasks, faithful.booked.messages⟩
  refine ⟨faithful.orderly.finish running result, booked, faithful.fresh, faithful.document, ?_⟩
  rcases faithful.orderly.loaded_finish running result with same | ⟨entry, added, reporting⟩
  · exact ⟨late, same.trans old, kept⟩
  · have all := added.trans (congrArg ((load.key, entry) :: ·) old)
    refine ⟨(load.key, entry) :: late, all, fun p member => ?_⟩
    rcases List.mem_cons.mp member with rfl | member
    · exact .inl reporting
    · exact kept p member

private theorem Faithful.post (faithful : w.Faithful archive) (due : BatchTask → Bool) :
    (w.step l (.post due)).Faithful archive := by
  obtain ⟨late, loaded, reported⟩ := faithful.late
  exact ⟨faithful.orderly.postWhere due, faithful.booked.postWhere faithful.orderly due,
    faithful.fresh, faithful.document, late, loaded,
    fun p member => (reported p member).imp (·.postWhere due) id⟩

private theorem Faithful.read (faithful : w.Faithful archive) :
    (w.step l .read).Faithful archive := by
  obtain ⟨late, loaded, reported⟩ := faithful.late
  cases waiting : w.session.mailbox with
  | nil =>
    simp only [WatchedSession.step, waiting]
    exact faithful
  | cons m rest =>
    simp only [WatchedSession.step, waiting]
    let s : Session := { w.session with mailbox := rest }
    have before : (w.session.taken m rest).Orderly := ⟨faithful.orderly.cache,
      faithful.orderly.present, faithful.orderly.own, faithful.orderly.awaited⟩
    have orderly : (s.read l m).1.Orderly := before.after
    have booked : (s.read l m).1.Booked w.superseded := faithful.booked.read waiting l
    obtain ⟨same, changes⟩ :=
      Engine.complete_cases s.engine (s.surroundings l) m.token m.report
    have document : (s.read l m).1.engine.document.In archive := by
      show Document.In archive (s.engine.complete _ _ _).engine.document
      rw [same]
      exact faithful.document
    rcases changes with ⟨changed, anew⟩ | ⟨unchanged, discarded, kept⟩
    · have news : (s.read l m).2 = true := changed
      rw [if_pos news]
      exact ⟨orderly, booked, anew, document, [], rfl,
        fun _ member => absurd member List.not_mem_nil⟩
    · have news : ¬(s.read l m).2 = true := by simpa [Session.read] using unchanged
      rw [if_neg news]
      refine ⟨orderly, booked, kept faithful.fresh, document, late, loaded, fun p member => ?_⟩
      rcases reported p member with (⟨t, found, prepared⟩ | ⟨m', posted, own⟩) | past
      · exact .inl (Session.Reporting.after (.inl ⟨t, found, prepared⟩))
      · rw [waiting] at posted
        rcases List.mem_cons.mp posted with rfl | later
        · rcases discarded with stale | nothing
          · obtain ⟨b, past, keys⟩ := faithful.booked.superseded_of_stale waiting stale
            exact .inr ⟨b, past, keys own⟩
          · rw [nothing] at own
            exact absurd own List.not_mem_nil
        · exact .inl (.inr ⟨m', later, own⟩)
      · exact .inr past

private theorem Faithful.step (faithful : w.Faithful archive) {event : SessionEvent}
    (allowed : event.Allowed archive w.session) : (w.step l event).Faithful archive := by
  cases event with
  | init d => exact faithful.init allowed
  | apply t => exact faithful.apply allowed.1 allowed.2.1 allowed.2.2
  | begin token => exact faithful.begin token
  | finish load result => exact faithful.finish allowed result
  | post due => exact faithful.post due
  | read => exact faithful.read
  | sleep milliseconds =>
    obtain ⟨⟨cache, present, own, awaited⟩, ⟨live, distinct, issued, tasks, messages⟩, fresh,
      document, late⟩ := faithful
    exact ⟨⟨cache, present, own, awaited⟩, ⟨live, distinct, issued, tasks, messages⟩, fresh,
      document, late⟩

private theorem Reached.faithful (reached : Reached l archive w) : w.Faithful archive := by
  induction reached with
  | start config known => exact faithful_start config known
  | step _ allowed ih => exact ih.step allowed

end Faithful

/-! A run in which a theme is loaded and never shown. The grammar and the theme of a document fail
to load, the theme first, so that it is asked for again before the grammar. It is loaded, but the
next edit comes before its completion is read, and asks for the grammar in a batch that takes the
place of the theme's. The grammar fails once more. -/

namespace LostTheme

def grammarKey : ResourceKey := ⟨.grammar, "rust"⟩

def themeKey : ResourceKey := ⟨.theme, "dusk"⟩

def theme : Theme := ⟨"dusk", "Dusk", .dark, none, none, []⟩

def config : Config := { defaultTheme := "dusk", defaultLanguage := "rust", retryAfter := 0 }

def loader : Loader := ⟨fun _ => true, fun _ => .error .crashed⟩

def document : Document := ⟨[.codeBlock {} "x"], 1⟩

def archive : Nat → List Node
  | 0 => []
  | _ => document.content

def edit : Transaction := (TransactionBuilder.start document {}).build

/-- The engine with what it has asked for. Its decorations stay plain in the whole run. -/
def engine (nextToken : Nat) (outstanding : Option Batch) : Engine where
  config := config
  batches := { nextToken, outstanding, retryAfter := leastRetryAfter }
  document := document
  decorations :=
    ⟨1, [.node 0 3 { className := some "code-block plain", dataLanguage := some "text" },
      .inline 1 2 {} {}]⟩

/-- Both are being loaded. -/
def begun : WatchedSession where
  session :=
    { engine := engine 2 (some ⟨1, [grammarKey, themeKey], 1⟩)
      cache :=
        { inFlight := [(themeKey, 1), (grammarKey, 0)]
          loadCount := 2
          running := [⟨0, grammarKey, 0⟩, ⟨1, themeKey, 0⟩] }
      tasks := [⟨⟨1, [grammarKey, themeKey], 1⟩,
        some { waits := [(grammarKey, 0), (themeKey, 1)] }⟩] }

/-- Both have failed, and the theme is being loaded again. -/
def retried : WatchedSession where
  session :=
    { engine := engine 3 (some ⟨2, [themeKey], 1⟩)
      cache :=
        { inFlight := [(themeKey, 2)]
          failures := [(grammarKey, ⟨65, .crashed⟩), (themeKey, ⟨0, .crashed⟩)]
          loadCount := 3
          running := [⟨2, themeKey, 0⟩]
          outcomes := [(0, .error .crashed), (1, .error .crashed)] }
      now := 130
      tasks := [⟨⟨2, [themeKey], 1⟩, some { waits := [(themeKey, 2)] }⟩] }

/-- The theme is loaded, which is not read yet, and the grammar is being loaded again. -/
def displaced : WatchedSession where
  session :=
    { engine := engine 4 (some ⟨3, [grammarKey], 1⟩)
      cache :=
        { loaded := [(themeKey, ⟨.theme theme, 130⟩)]
          inFlight := [(grammarKey, 3)]
          failures := [(grammarKey, ⟨65, .crashed⟩)]
          loadCount := 4
          running := [⟨3, grammarKey, 0⟩]
          outcomes := [(2, .ok ()), (0, .error .crashed), (1, .error .crashed)] }
      now := 195
      tasks := [⟨⟨3, [grammarKey], 1⟩, some { waits := [(grammarKey, 3)] }⟩]
      mailbox := [⟨2, { loaded := [themeKey] }⟩] }
  superseded := [⟨2, [themeKey], 1⟩]

/-- All is read, and nothing will be asked for before the next edit. -/
def lost : WatchedSession where
  session :=
    { engine := engine 4 none
      cache :=
        { loaded := [(themeKey, ⟨.theme theme, 130⟩)]
          failures := [(grammarKey, ⟨195, .crashed⟩)]
          loadCount := 4
          outcomes :=
            [(3, .error .crashed), (2, .ok ()), (0, .error .crashed), (1, .error .crashed)] }
      now := 195 }
  superseded := [⟨2, [themeKey], 1⟩]

private theorem edit_allowed (s : Session) : (SessionEvent.apply edit).Allowed archive s :=
  ⟨.build (.start (by decide +kernel) _), rfl, rfl⟩

private theorem reached_begun : Reached loader archive begun := by
  have start : Reached loader archive (.start config 0) := .start config rfl
  have next := start.run [.init document, .begin 1] ⟨rfl, trivial, trivial⟩
  have same : [SessionEvent.init document, .begin 1].foldl (step loader) (.start config 0) =
      begun := by cbv
  rwa [same] at next

private theorem reached_retried : Reached loader archive retried := by
  let events : List SessionEvent :=
    [.finish ⟨1, themeKey, 0⟩ (.error .crashed), .sleep 65,
      .finish ⟨0, grammarKey, 0⟩ (.error .crashed), .post fun _ => true, .read, .sleep 65,
      .apply edit, .begin 2]
  have possible : Possible loader archive begun events :=
    ⟨List.mem_cons_of_mem _ List.mem_cons_self, trivial, List.mem_cons_self, trivial, trivial,
      trivial, edit_allowed _, trivial, trivial⟩
  have next := reached_begun.run events possible
  have same : events.foldl (step loader) begun = retried := by cbv
  rwa [same] at next

private theorem reached_displaced : Reached loader archive displaced := by
  let events : List SessionEvent :=
    [.finish ⟨2, themeKey, 0⟩ (.ok (.theme theme)), .post fun _ => true, .sleep 65,
      .apply edit, .begin 3]
  have possible : Possible loader archive retried events :=
    ⟨List.mem_cons_self, trivial, trivial, edit_allowed _, trivial, trivial⟩
  have next := reached_retried.run events possible
  have same : events.foldl (step loader) retried = displaced := by cbv
  rwa [same] at next

private theorem reached_lost : Reached loader archive lost := by
  let events : List SessionEvent :=
    [.finish ⟨3, grammarKey, 0⟩ (.error .crashed), .post fun _ => true, .read, .read]
  have possible : Possible loader archive displaced events :=
    ⟨List.mem_cons_self, trivial, trivial, trivial, trivial⟩
  have next := reached_displaced.run events possible
  have same : events.foldl (step loader) displaced = lost := by cbv
  rwa [same] at next

private theorem quiescent_lost : lost.session.Quiescent := ⟨rfl, rfl, rfl⟩

end LostTheme

/-- In a session at rest the decorations are those computed for the document with what is loaded,
just if it is the same to compute them with what was loaded when they were computed last. Whatever
was loaded since then was loaded for a superseded batch; so the decorations are right if all that
superseded batches asked for and that is loaded was loaded by then. -/
theorem decorations_eq_decorate_iff {l : Loader} {archive : Nat → List Node} {w : WatchedSession}
    (reached : Reached l archive w) (quiescent : w.session.Quiescent) :
    (w.session.engine.decorations =
        w.session.engine.document.decorate w.session.cache w.session.engine.config ↔
      w.session.engine.document.decorate w.seen w.session.engine.config =
        w.session.engine.document.decorate w.session.cache w.session.engine.config) ∧
    (∃ late, w.session.cache.loaded = late ++ w.seen.loaded ∧
      ∀ p ∈ late, ∃ b ∈ w.superseded, p.1 ∈ b.keys) ∧
    ((∀ b ∈ w.superseded, ∀ key ∈ b.keys, w.session.cache.contains key → w.seen.contains key) →
      w.session.engine.decorations =
        w.session.engine.document.decorate w.session.cache w.session.engine.config) := by
  have faithful := reached.faithful
  obtain ⟨late, loaded, reported⟩ := faithful.late
  have lost : ∀ p ∈ late, ∃ b ∈ w.superseded, p.1 ∈ b.keys := by
    intro p member
    rcases reported p member with
      (⟨t, found, number, ⟨r, begun, waited⟩, -⟩ | ⟨m, posted, -⟩) | past
    · -- A task that has not posted yet is not that of the outstanding batch: there is none.
      have past := (faithful.booked.tasks t found).resolve_left (by simp [quiescent.settled])
      exact ⟨t.batch, past, (faithful.orderly.own t found r begun).2 _ waited⟩
    · rw [quiescent.read] at posted
      exact absurd posted List.not_mem_nil
    · exact past
  refine ⟨?_, ⟨late, loaded, lost⟩, fun seen => ?_⟩
  · rw [faithful.fresh.decorations]
  · have none : late = [] := by
      refine List.eq_nil_iff_forall_not_mem.mpr fun p member => ?_
      obtain ⟨b, past, key⟩ := lost p member
      have present : p.1 ∈ w.session.cache.loaded.map (·.1) := by
        rw [loaded]
        exact List.mem_map_of_mem (List.mem_append_left _ member)
      have shown := seen b past p.1 key (Cache.contains_iff.mpr present)
      have single := faithful.orderly.cache.single
      rw [loaded, List.map_append] at single
      exact List.disjoint_of_nodup_append single (List.mem_map_of_mem member)
        (Cache.contains_iff.mp shown)
    rw [none] at loaded
    rw [faithful.fresh.decorations, Document.decorate_congr loaded.symm]

namespace LostTheme

theorem decorations_eq_decorate_iff_lost :
    Reached loader archive lost ∧ lost.session.Quiescent ∧
    (lost.session.engine.decorations = document.decorate lost.session.cache config ↔
      document.decorate {} config = document.decorate lost.session.cache config) ∧
    (∃ late, lost.session.cache.loaded = late ++ [] ∧
      ∀ p ∈ late, ∃ b ∈ lost.superseded, p.1 ∈ b.keys) ∧
    ((∀ b ∈ lost.superseded, ∀ key ∈ b.keys, lost.session.cache.contains key →
        lost.seen.contains key) →
      lost.session.engine.decorations = document.decorate lost.session.cache config) :=
  ⟨reached_lost, quiescent_lost, decorations_eq_decorate_iff reached_lost quiescent_lost⟩

/-- Nothing is asked for, being loaded or left to read, and yet the decorations leave out a theme
that is loaded: they are not those computed for the document. -/
theorem lost_ne_decorate : Reached loader archive lost ∧ lost.session.Quiescent ∧
    lost.session.tasks = [] ∧ lost.session.engine.decorations ≠
      lost.session.engine.document.decorate lost.session.cache lost.session.engine.config := by
  refine ⟨reached_lost, quiescent_lost, rfl, ?_⟩
  have shown : lost.session.engine.document.decorate lost.session.cache
      lost.session.engine.config =
      ⟨1, [.node 0 3 { className := some "code-block dusk", dataLanguage := some "text" },
        .inline 1 2 {} {}]⟩ := by cbv
  rw [shown]
  decide

end LostTheme

end WatchedSession

end CodeTint
