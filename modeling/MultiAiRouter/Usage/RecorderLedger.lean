import Mathlib.Data.List.Perm.Basic
import MultiAiRouter.Usage.Recorder

/-!
# No usage record is lost or counted twice

Every record that was accepted is in one place: queued, held for its second try, in the batch being written,
written, shed, or given up after its second refusal. A record is offered at most twice and written in the order it
was accepted.
-/

namespace MultiAiRouter.Usage

open Common Shutdown

variable {Attempt Terminal : Type}

section Ledger

/-- What became of the records: an entry stands in a column once for each time it happened to it. -/
structure UsageLedger (Attempt Terminal : Type) where
  accepted : List (QueuedUsage Attempt Terminal) := []
  shed : List (QueuedUsage Attempt Terminal) := []
  observed : List (QueuedUsage Attempt Terminal) := []
  offered : List (QueuedUsage Attempt Terminal) := []
  written : List (QueuedUsage Attempt Terminal) := []
  refused : List (QueuedUsage Attempt Terminal) := []
  discarded : List (QueuedUsage Attempt Terminal) := []

/-- Book more below what is there. -/
def UsageLedger.add (ledger more : UsageLedger Attempt Terminal) : UsageLedger Attempt Terminal where
  accepted := ledger.accepted ++ more.accepted
  shed := ledger.shed ++ more.shed
  observed := ledger.observed ++ more.observed
  offered := ledger.offered ++ more.offered
  written := ledger.written ++ more.written
  refused := ledger.refused ++ more.refused
  discarded := ledger.discarded ++ more.discarded

/-- What a fate books. -/
def UsageFate.booked : UsageFate Attempt Terminal → UsageLedger Attempt Terminal
  | .accepted entry => { accepted := [entry] }
  | .shed entries => { shed := entries }
  | .onRecord record => { observed := [.attempt record] }
  | .offered attempts terminals => { offered := attempts.map .attempt ++ terminals.map .terminal }
  | .wrote batch => { written := batch }
  | .onWriteError batch discarded => { refused := batch, discarded := if discarded then batch else [] }
  | .rejected _ | .onShed _ | .onAbandoned _ => {}

/-- The ledger of what happened, in order. -/
def ledgerOf : List (UsageFate Attempt Terminal) → UsageLedger Attempt Terminal
  | [] => {}
  | fate :: rest => fate.booked.add (ledgerOf rest)

theorem UsageLedger.add_assoc (first second third : UsageLedger Attempt Terminal) :
    (first.add second).add third = first.add (second.add third) := by
  simp [UsageLedger.add]

@[simp] theorem UsageLedger.add_blank (ledger : UsageLedger Attempt Terminal) : ledger.add {} = ledger := by
  simp [UsageLedger.add]

/-- What happens in two parts is booked in two parts. -/
theorem ledgerOf_append (first second : List (UsageFate Attempt Terminal)) :
    ledgerOf (first ++ second) = (ledgerOf first).add (ledgerOf second) := by
  induction first with
  | nil => rfl
  | cons fate rest ih => rw [List.cons_append, ledgerOf, ih, ledgerOf, UsageLedger.add_assoc]

/-- What the writer is given of a batch. -/
def offerOf (batch : List (QueuedUsage Attempt Terminal)) : List Attempt × List Terminal :=
  (batch.filterMap QueuedUsage.attempt?, batch.filterMap QueuedUsage.terminal?)

/-- The entries of an offer. -/
def offeredEntries (batch : List (QueuedUsage Attempt Terminal)) : List (QueuedUsage Attempt Terminal) :=
  (offerOf batch).1.map .attempt ++ (offerOf batch).2.map .terminal

/-- One offer at a time: the next one comes after this one has settled, and with the batch it was made of. -/
def oneInFlight [DecidableEq Attempt] [DecidableEq Terminal] :
    Option (List Attempt × List Terminal) → UsageFate Attempt Terminal →
      Option (Option (List Attempt × List Terminal))
  | none, .offered attempts terminals => some (some (attempts, terminals))
  | some _, .offered _ _ => none
  | out, .wrote batch => if out = some (offerOf batch) then some none else none
  | out, .onWriteError batch _ => if out = some (offerOf batch) then some none else none
  | out, _ => some out

/-- An offer is the batch it is made of. -/
theorem offeredEntries_perm (batch : List (QueuedUsage Attempt Terminal)) : (offeredEntries batch).Perm batch := by
  induction batch with
  | nil => rfl
  | cons entry rest ih =>
    simp only [offeredEntries, offerOf, List.filterMap_cons] at ih ⊢
    cases entry with
    | attempt record => exact ih.cons _
    | terminal terminal => exact List.perm_middle.trans (ih.cons _)

/-- Observing attempts books them. -/
theorem ledgerOf_onRecord (attempts : List Attempt) :
    ledgerOf (attempts.map fun record => (UsageFate.onRecord record : UsageFate Attempt Terminal)) =
      { observed := attempts.map QueuedUsage.attempt } := by
  induction attempts with
  | nil => rfl
  | cons record rest ih => rw [List.map_cons, ledgerOf, ih]; rfl

/-- What the offer of a batch tells. -/
theorem ledgerOf_writeBatch (recorder : Recorder Attempt Terminal) (batch : List (QueuedUsage Attempt Terminal))
    (retried : Bool) : ledgerOf (recorder.writeBatch batch retried).2 =
      { observed := if retried then [] else (offerOf batch).1.map .attempt, offered := offeredEntries batch } := by
  unfold Recorder.writeBatch
  dsimp only
  rw [ledgerOf_append]
  cases retried with
  | true => simp [ledgerOf, UsageFate.booked, UsageLedger.add, offeredEntries, offerOf]
  | false =>
    simp only [Bool.false_eq_true, if_false]
    rw [ledgerOf_onRecord]
    simp [ledgerOf, UsageFate.booked, UsageLedger.add, offeredEntries, offerOf]

end Ledger

/-- The records are conserved in what happened so far. -/
structure Conserved [DecidableEq Attempt] [DecidableEq Terminal] (recorder : Recorder Attempt Terminal)
    (fates : List (UsageFate Attempt Terminal)) : Prop where
  /-- Every accepted record is in exactly one place. -/
  placed : (ledgerOf fates).accepted.Perm
    (recorder.queue.contents ++ recorder.held ++ recorder.inFlight ++ (ledgerOf fates).written ++
      (ledgerOf fates).shed ++ (ledgerOf fates).discarded)
  /-- The counters add up. -/
  counted : (ledgerOf fates).accepted.length =
    recorder.written + recorder.queue.dropped + recorder.writeDiscarded + recorder.depth + recorder.inFlight.length
  /-- What was given up was refused twice. -/
  refusedTwice : ∀ entry, 2 * (ledgerOf fates).discarded.count entry ≤ (ledgerOf fates).refused.count entry
  offers : ∀ entry, (ledgerOf fates).offered.count entry ≤ 2 * (ledgerOf fates).accepted.count entry
  observations : ∀ entry, (ledgerOf fates).observed.count entry ≤ (ledgerOf fates).accepted.count entry
  alone : ∃ out, readAll oneInFlight none fates = some out
  ordered : (ledgerOf fates).written.Sublist (ledgerOf fates).accepted

section Books

variable [DecidableEq Attempt] [DecidableEq Terminal] {ledger : UsageLedger Attempt Terminal} {refusals : Nat}
  {flight held queued batch : List (QueuedUsage Attempt Terminal)}

/-- The books: the columns against the batch under way, which was refused so many times before, the batch
that is held, and the queue. -/
structure Books (flight held queued : List (QueuedUsage Attempt Terminal)) (refusals : Nat)
    (ledger : UsageLedger Attempt Terminal) : Prop where
  ordered : (ledger.written ++ (flight ++ held ++ queued)).Sublist ledger.accepted
  placed : ∀ entry, ledger.accepted.count entry =
    ledger.written.count entry + flight.count entry + held.count entry + queued.count entry +
      ledger.shed.count entry + ledger.discarded.count entry
  refused : ∀ entry, 2 * ledger.discarded.count entry + held.count entry + refusals * flight.count entry ≤
    ledger.refused.count entry
  offered : ∀ entry, ledger.offered.count entry ≤
    2 * (ledger.written.count entry + ledger.discarded.count entry) + held.count entry +
      (refusals + 1) * flight.count entry
  observed : ∀ entry, ledger.observed.count entry ≤
    ledger.written.count entry + ledger.discarded.count entry + held.count entry + flight.count entry
  tried : refusals ≤ 1

theorem books_blank : Books [] [] [] 0 ({} : UsageLedger Attempt Terminal) := by
  constructor <;> simp

/-- What the books say of one record. -/
def Tallies (flight held queued : List (QueuedUsage Attempt Terminal)) (refusals : Nat)
    (ledger : UsageLedger Attempt Terminal) (entry : QueuedUsage Attempt Terminal) : Prop :=
  ledger.accepted.count entry =
      ledger.written.count entry + flight.count entry + held.count entry + queued.count entry +
        ledger.shed.count entry + ledger.discarded.count entry ∧
    2 * ledger.discarded.count entry + held.count entry + refusals * flight.count entry ≤ ledger.refused.count entry ∧
    ledger.offered.count entry ≤
      2 * (ledger.written.count entry + ledger.discarded.count entry) + held.count entry +
        (refusals + 1) * flight.count entry ∧
    ledger.observed.count entry ≤
      ledger.written.count entry + ledger.discarded.count entry + held.count entry + flight.count entry

theorem Books.tallies (h : Books flight held queued refusals ledger) (entry : QueuedUsage Attempt Terminal) :
    Tallies flight held queued refusals ledger entry :=
  ⟨h.placed entry, h.refused entry, h.offered entry, h.observed entry⟩

/-- What tallies each entry is in the books. -/
theorem Books.of_tallies (hordered : (ledger.written ++ (flight ++ held ++ queued)).Sublist ledger.accepted)
    (htried : refusals ≤ 1) (h : ∀ entry, Tallies flight held queued refusals ledger entry) :
    Books flight held queued refusals ledger :=
  ⟨hordered, fun entry => (h entry).1, fun entry => (h entry).2.1, fun entry => (h entry).2.2.1,
    fun entry => (h entry).2.2.2, htried⟩

/-- A record that is accepted pushes the oldest ones out of the queue. -/
theorem Books.accept (h : Books flight held queued refusals ledger) (entry : QueuedUsage Attempt Terminal)
    (count : Nat) : Books flight held (queued.drop count ++ [entry]) refusals
      (ledger.add { accepted := [entry], shed := queued.take count }) where
  ordered := by
    have hrest : (ledger.written ++ (flight ++ held ++ queued.drop count)).Sublist ledger.accepted := by
      refine List.Sublist.trans ?_ h.ordered
      exact ((List.drop_sublist count queued).append_left _).append_left _
    simpa [UsageLedger.add] using hrest.append (List.Sublist.refl [entry])
  placed := by
    intro other
    have hplaced := h.placed other
    have hsplit : queued.count other = (queued.take count).count other + (queued.drop count).count other := by
      rw [← List.count_append, List.take_append_drop]
    simp only [UsageLedger.add, List.count_append, List.append_nil]
    omega
  refused := by simpa [UsageLedger.add] using h.refused
  offered := by simpa [UsageLedger.add] using h.offered
  observed := by simpa [UsageLedger.add] using h.observed
  tried := h.tried

/-- A batch is taken off the queue, observed, and offered. -/
theorem Books.offer (h : Books [] [] (batch ++ queued) refusals ledger) : Books batch [] queued 0 (ledger.add
        { observed := (offerOf batch).1.map .attempt, offered := offeredEntries batch }) := by
  refine .of_tallies (by simpa [UsageLedger.add] using h.ordered) (Nat.zero_le 1) fun entry => ?_
  have htallies := h.tallies entry
  have hbatch := (offeredEntries_perm batch).count_eq entry
  rw [offeredEntries, List.count_append] at hbatch
  simp only [Tallies, UsageLedger.add, offeredEntries, List.count_append, List.count_nil, List.append_nil] at htallies ⊢
  omega

/-- The held batch is offered a second time. -/
theorem Books.retry (h : Books [] held queued refusals ledger) :
    Books held [] queued 1 (ledger.add { offered := offeredEntries held }) := by
  refine .of_tallies (by simpa [UsageLedger.add] using h.ordered) (Nat.le_refl 1) fun entry => ?_
  have htallies := h.tallies entry
  have hbatch := (offeredEntries_perm held).count_eq entry
  simp only [Tallies, UsageLedger.add, List.count_append, List.count_nil, List.append_nil] at htallies ⊢
  omega

/-- The batch under way is written. -/
theorem Books.wrote (h : Books flight held queued refusals ledger) :
    Books [] held queued 0 (ledger.add { written := flight }) := by
  refine .of_tallies (by simpa [UsageLedger.add] using h.ordered) (Nat.zero_le 1) fun entry => ?_
  have htallies := h.tallies entry
  have htwice : (refusals + 1) * flight.count entry ≤ 2 * flight.count entry :=
    Nat.mul_le_mul_right _ (Nat.succ_le_succ h.tried)
  simp only [Tallies, UsageLedger.add, List.count_append, List.count_nil, List.append_nil] at htallies ⊢
  omega

/-- The batch under way is refused for the first time, and held. -/
theorem Books.hold (h : Books flight [] queued 0 ledger) :
    Books [] flight queued 0 (ledger.add { refused := flight }) := by
  refine .of_tallies (by simpa [UsageLedger.add] using h.ordered) (Nat.zero_le 1) fun entry => ?_
  have htallies := h.tallies entry
  simp only [Tallies, UsageLedger.add, List.count_append, List.count_nil, List.append_nil] at htallies ⊢
  omega

/-- The batch under way is refused for the second time, and given up. -/
theorem Books.discard (h : Books flight held queued 1 ledger) :
    Books [] held queued 0 (ledger.add { refused := flight, discarded := flight }) := by
  have hrest : (ledger.written ++ (held ++ queued)).Sublist ledger.accepted := by
    refine List.Sublist.trans ?_ h.ordered
    rw [List.append_assoc flight]
    exact (List.sublist_append_right flight _).append_left _
  refine .of_tallies (by simpa [UsageLedger.add] using hrest) (Nat.zero_le 1) fun entry => ?_
  have htallies := h.tallies entry
  simp only [Tallies, UsageLedger.add, List.count_append, List.count_nil, List.append_nil] at htallies ⊢
  omega

end Books

section Steps

variable [DecidableEq Attempt] [DecidableEq Terminal] {recorder next : Recorder Attempt Terminal}
  {fates told : List (UsageFate Attempt Terminal)} {batch : List (QueuedUsage Attempt Terminal)} {retried : Bool}

/-- How often the batch under way was refused before. -/
def DrainRun.refusals {Entry : Type} (run : DrainRun Entry) : Nat :=
  if run.write?.any Prod.snd then 1 else 0

/-- What the writer has in hand. -/
def DrainRun.out (run : DrainRun (QueuedUsage Attempt Terminal)) : Option (List Attempt × List Terminal) :=
  run.write?.map fun write => offerOf write.1

/-- The books of a recorder are in order after what happened so far. -/
structure Booked (recorder : Recorder Attempt Terminal) (fates : List (UsageFate Attempt Terminal)) : Prop where
  books : Books recorder.inFlight recorder.held recorder.queue.contents recorder.run.refusals (ledgerOf fates)
  written : recorder.written = (ledgerOf fates).written.length
  dropped : recorder.queue.dropped = (ledgerOf fates).shed.length
  discarded : recorder.writeDiscarded = (ledgerOf fates).discarded.length
  /-- While a batch is written, none is held. -/
  single : recorder.run.write? ≠ none → recorder.retry = none
  alone : readAll oneInFlight none fates = some recorder.run.out

/-- A fate that books nothing and does not touch the writer. -/
def UsageFate.Quiet (fate : UsageFate Attempt Terminal) : Prop :=
  fate.booked = {} ∧ ∀ out, oneInFlight out fate = some out

/-- Quiet fates leave the ledger as it is. -/
theorem ledgerOf_quiet (h : ∀ fate ∈ told, fate.Quiet) : ledgerOf (fates ++ told) = ledgerOf fates := by
  have hblank : ledgerOf told = {} := by
    induction told with
    | nil => rfl
    | cons fate rest ih =>
      rw [ledgerOf, (h fate (.head _)).1, ih fun other hmem => h other (.tail _ hmem)]
      rfl
  rw [ledgerOf_append, hblank, UsageLedger.add_blank]

/-- Quiet fates leave the writer alone. -/
theorem readAll_quiet (h : ∀ fate ∈ told, fate.Quiet) (out : Option (List Attempt × List Terminal)) :
    readAll oneInFlight out told = some out := by
  induction told with
  | nil => rfl
  | cons fate rest ih =>
    rw [readAll_cons, (h fate (.head _)).2 out, Option.bind_some]
    exact ih fun other hmem => h other (.tail _ hmem)

/-- A step that moves no record leaves the books as they are. -/
theorem Booked.still (h : Booked recorder fates) (hqueue : next.queue = recorder.queue)
    (hretry : next.retry = recorder.retry) (hrun : next.run.write? = recorder.run.write?)
    (hwritten : next.written = recorder.written) (hdiscarded : next.writeDiscarded = recorder.writeDiscarded)
    (hquiet : ∀ fate ∈ told, fate.Quiet) : Booked next (fates ++ told) := by
  have hheld : next.held = recorder.held := by simp only [Recorder.held, hretry]
  have hflight : next.inFlight = recorder.inFlight := by simp only [Recorder.inFlight, hrun]
  have hrefusals : next.run.refusals = recorder.run.refusals := by simp only [DrainRun.refusals, hrun]
  have hout : next.run.out = recorder.run.out := by simp only [DrainRun.out, hrun]
  constructor
  · rw [hflight, hheld, hqueue, hrefusals, ledgerOf_quiet hquiet]; exact h.books
  · rw [hwritten, ledgerOf_quiet hquiet]; exact h.written
  · rw [hqueue, ledgerOf_quiet hquiet]; exact h.dropped
  · rw [hdiscarded, ledgerOf_quiet hquiet]; exact h.discarded
  · rw [hrun, hretry]; exact h.single
  · rw [readAll_append, h.alone, hout, Option.bind_some]; exact readAll_quiet hquiet _

/-- A record arrives. -/
theorem Booked.enqueue (h : Booked recorder fates) (entry : QueuedUsage Attempt Terminal) :
    Booked (recorder.enqueue entry).1 (fates ++ (recorder.enqueue entry).2) := by
  unfold Recorder.enqueue
  split
  · refine h.still rfl rfl rfl rfl rfl ?_
    intro fate hfate
    rw [List.mem_singleton.mp hfate]
    exact ⟨rfl, fun out => by cases out <;> rfl⟩
  · obtain ⟨count, hcontents, hdropped, hcount⟩ := recorder.queue.push_spec entry
    have hshed : (recorder.queue.push entry).1.dropped - recorder.queue.dropped = count := by omega
    have hcallback : ∀ fate ∈ (if (recorder.queue.push entry).2 then [] else [UsageFate.onShed entry]),
        fate.Quiet := by
      intro fate hfate
      split at hfate
      · cases hfate
      · rw [List.mem_singleton.mp hfate]
        exact ⟨rfl, fun out => by cases out <;> rfl⟩
    have hledger : ledgerOf (fates ++ [UsageFate.accepted entry,
        UsageFate.shed (recorder.queue.contents.take count)]) =
        (ledgerOf fates).add { accepted := [entry], shed := recorder.queue.contents.take count } := by
      rw [ledgerOf_append]
      simp [ledgerOf, UsageFate.booked, UsageLedger.add]
    dsimp only
    rw [hshed, ← List.append_assoc]
    constructor
    · rw [ledgerOf_quiet hcallback, hledger]
      have haccept := h.books.accept entry count
      rw [← hcontents] at haccept
      exact haccept
    · rw [ledgerOf_quiet hcallback, hledger]
      simpa [UsageLedger.add] using h.written
    · rw [ledgerOf_quiet hcallback, hledger]
      have hlength : (recorder.queue.contents.take count).length = count := by
        rw [List.length_take, BoundedQueue.length_contents, Nat.min_eq_left hcount]
      simp only [UsageLedger.add, List.length_append, hlength, hdropped, h.dropped]
    · rw [ledgerOf_quiet hcallback, hledger]
      simpa [UsageLedger.add] using h.discarded
    · exact h.single
    · rw [readAll_append, readAll_append, h.alone, Option.bind_some]
      have hfirst : ∀ out, readAll oneInFlight out [UsageFate.accepted entry,
          UsageFate.shed (recorder.queue.contents.take count)] = some out := by
        intro out
        cases out <;> rfl
      rw [hfirst, Option.bind_some]
      exact readAll_quiet hcallback _

/-- The writer takes an offer when it has nothing in hand. -/
theorem readAll_writeBatch (batch : List (QueuedUsage Attempt Terminal)) (retried : Bool) :
    readAll oneInFlight none (recorder.writeBatch batch retried).2 = some (some (offerOf batch)) := by
  have hobserved : ∀ records : List Attempt,
      readAll oneInFlight none (records.map fun record => (UsageFate.onRecord record : UsageFate Attempt Terminal)) =
        some none := by
    intro records
    induction records with
    | nil => rfl
    | cons record rest ih => exact ih
  unfold Recorder.writeBatch
  dsimp only
  rw [readAll_append]
  cases retried with
  | true => rfl
  | false =>
    simp only [Bool.false_eq_true, if_false]
    rw [hobserved, Option.bind_some]
    rfl

/-- A drain that is over, with its records where the books have them. -/
theorem Booked.ends (hrun : next.run.write? = none)
    (hbooks : Books [] next.held next.queue.contents 0 (ledgerOf fates))
    (hwritten : next.written = (ledgerOf fates).written.length)
    (hdropped : next.queue.dropped = (ledgerOf fates).shed.length)
    (hdiscarded : next.writeDiscarded = (ledgerOf fates).discarded.length)
    (halone : readAll oneInFlight none fates = some none) : Booked next fates where
  books := by simpa [Recorder.inFlight, DrainRun.refusals, hrun] using hbooks
  written := hwritten
  dropped := hdropped
  discarded := hdiscarded
  single := fun hsome => absurd hrun hsome
  alone := by simpa [DrainRun.out, hrun] using halone

/-- A batch that is offered, with none held. -/
theorem Booked.begins (hretry : next.retry = none)
    (hbooks : Books batch [] next.queue.contents (if retried then 1 else 0) ((ledgerOf fates).add
      { observed := if retried then [] else (offerOf batch).1.map .attempt, offered := offeredEntries batch }))
    (hwritten : next.written = (ledgerOf fates).written.length)
    (hdropped : next.queue.dropped = (ledgerOf fates).shed.length)
    (hdiscarded : next.writeDiscarded = (ledgerOf fates).discarded.length)
    (halone : readAll oneInFlight none fates = some none) :
    Booked (next.writeBatch batch retried).1 (fates ++ (next.writeBatch batch retried).2) := by
  constructor
  · rw [ledgerOf_append, ledgerOf_writeBatch]
    simpa [Recorder.writeBatch, Recorder.inFlight, Recorder.held, DrainRun.write?, DrainRun.refusals, hretry]
      using hbooks
  · rw [ledgerOf_append, ledgerOf_writeBatch]
    simpa [UsageLedger.add, Recorder.writeBatch] using hwritten
  · rw [ledgerOf_append, ledgerOf_writeBatch]
    simpa [UsageLedger.add, Recorder.writeBatch] using hdropped
  · rw [ledgerOf_append, ledgerOf_writeBatch]
    simpa [UsageLedger.add, Recorder.writeBatch] using hdiscarded
  · exact fun _ => hretry
  · rw [readAll_append, halone, Option.bind_some, readAll_writeBatch]
    rfl

/-- The next turn of a drain, with nothing under way. -/
theorem Booked.drainAll (h : Booked recorder fates) (hidle : recorder.run.write? = none) :
    Booked recorder.drainAll.1 (fates ++ recorder.drainAll.2) := by
  have hbooks := h.books
  have hflight : recorder.inFlight = [] := by simp only [Recorder.inFlight, hidle, Option.map_none, Option.getD_none]
  have hrefusals : recorder.run.refusals = 0 := by simp [DrainRun.refusals, hidle]
  have halone : readAll oneInFlight none fates = some none := by simpa [DrainRun.out, hidle] using h.alone
  rw [hflight, hrefusals] at hbooks
  unfold Recorder.drainAll
  split
  · exact h.still rfl rfl hidle.symm rfl rfl nofun
  · split
    · next batch hretry =>
      have hheld : recorder.held = batch := by simp only [Recorder.held, hretry, Option.getD_some]
      rw [hheld] at hbooks
      dsimp only
      split
      · next hempty =>
        rw [List.isEmpty_iff.mp hempty] at hbooks
        rw [List.append_nil]
        exact Booked.ends rfl hbooks h.written h.dropped h.discarded halone
      · exact Booked.begins rfl hbooks.retry h.written h.dropped h.discarded halone
    · next hretry =>
      obtain ⟨hcontents, hdropped⟩ := recorder.queue.drain_spec recorder.batchSize
      have hheld : recorder.held = [] := by simp only [Recorder.held, hretry, Option.getD_none]
      rw [hheld, ← hcontents] at hbooks
      dsimp only
      split
      · next hempty =>
        rw [List.isEmpty_iff.mp hempty, List.nil_append] at hbooks
        rw [List.append_nil]
        refine Booked.ends rfl ?_ h.written (hdropped.trans h.dropped) h.discarded halone
        simpa only [Recorder.held, hretry, Option.getD_none] using hbooks
      · exact Booked.begins hretry hbooks.offer h.written (hdropped.trans h.dropped) h.discarded halone

/-- A flush. -/
theorem Booked.flush (h : Booked recorder fates) : Booked recorder.flush.1 (fates ++ recorder.flush.2) := by
  unfold Recorder.flush
  split
  · next hidle => exact h.drainAll (by rw [hidle]; rfl)
  · rw [List.append_nil]
    exact h

/-- A pass that a stop or the timer may begin. -/
theorem Booked.pass (h : Booked recorder fates) (begins : Bool) :
    Booked (recorder.pass begins).1 (fates ++ (recorder.pass begins).2) := by
  unfold Recorder.pass
  split
  · exact h.flush
  · rw [List.append_nil]
    exact h

/-- The awaited write settles. -/
theorem Booked.writeSettles (h : Booked recorder fates) (accepted : Bool) :
    Booked (recorder.writeSettles accepted).1 (fates ++ (recorder.writeSettles accepted).2) := by
  unfold Recorder.writeSettles
  split
  · next batch retried hrun =>
    have hwrite : recorder.run.write? = some (batch, retried) := by rw [hrun]; rfl
    have hretry : recorder.retry = none := h.single (by rw [hwrite]; exact nofun)
    have hheld : recorder.held = [] := by simp only [Recorder.held, hretry, Option.getD_none]
    have hbooks := h.books
    have hflight : recorder.inFlight = batch := by
      simp only [Recorder.inFlight, hwrite, Option.map_some, Option.getD_some]
    have halone : readAll oneInFlight none fates = some (some (offerOf batch)) := by
      simpa [DrainRun.out, hwrite] using h.alone
    rw [hflight] at hbooks
    split
    · have hledger : ledgerOf (fates ++ [UsageFate.wrote batch]) = (ledgerOf fates).add { written := batch } := by
        rw [ledgerOf_append]
        simp [ledgerOf, UsageFate.booked, UsageLedger.add]
      have hwrote : Booked { recorder with written := recorder.written + batch.length, run := .over }
          (fates ++ [UsageFate.wrote batch]) := by
        refine Booked.ends rfl ?_ ?_ ?_ ?_ ?_
        · rw [hledger]; exact hbooks.wrote
        · rw [hledger]; simp [UsageLedger.add, h.written]
        · rw [hledger]; simpa [UsageLedger.add] using h.dropped
        · rw [hledger]; simpa [UsageLedger.add] using h.discarded
        · rw [readAll_append, halone, Option.bind_some]; simp [oneInFlight]
      have hnext := hwrote.drainAll rfl
      rw [List.append_assoc] at hnext
      -- The drain reads nothing of the write before it.
      exact hnext
    · cases retried with
      | true =>
        have hledger : ledgerOf (fates ++ [UsageFate.onWriteError batch true]) =
            (ledgerOf fates).add { refused := batch, discarded := batch } := by
          rw [ledgerOf_append]
          simp [ledgerOf, UsageFate.booked, UsageLedger.add]
        have hsecond : recorder.run.refusals = 1 := by simp [DrainRun.refusals, hwrite]
        rw [hsecond] at hbooks
        refine Booked.ends rfl ?_ ?_ ?_ ?_ ?_
        · rw [hledger]; exact hbooks.discard
        · rw [hledger]; simpa [UsageLedger.add] using h.written
        · rw [hledger]; simpa [UsageLedger.add] using h.dropped
        · rw [hledger]; simp [UsageLedger.add, h.discarded]
        · rw [readAll_append, halone, Option.bind_some]; simp [oneInFlight]
      | false =>
        have hledger : ledgerOf (fates ++ [UsageFate.onWriteError batch false]) =
            (ledgerOf fates).add { refused := batch } := by
          rw [ledgerOf_append]
          simp [ledgerOf, UsageFate.booked, UsageLedger.add]
        have hfirst : recorder.run.refusals = 0 := by simp [DrainRun.refusals, hwrite]
        rw [hfirst, hheld] at hbooks
        refine Booked.ends rfl ?_ ?_ ?_ ?_ ?_
        · rw [hledger]; exact hbooks.hold
        · rw [hledger]; simpa [UsageLedger.add] using h.written
        · rw [hledger]; simpa [UsageLedger.add] using h.dropped
        · rw [hledger]; simpa [UsageLedger.add] using h.discarded
        · rw [readAll_append, halone, Option.bind_some]; simp [oneInFlight]
  · rw [List.append_nil]
    exact h

/-- A warning is quiet. -/
theorem quiet_warned (records : Option Nat) :
    ∀ fate ∈ (Recorder.warned records : List (UsageFate Attempt Terminal)), fate.Quiet := by
  intro fate hfate
  obtain ⟨count, -, rfl⟩ : ∃ count, records = some count ∧ .onAbandoned count = fate := by
    simpa [Recorder.warned] using hfate
  exact ⟨rfl, fun out => by cases out <;> rfl⟩

/-- Every step keeps the books. -/
theorem Booked.step (h : Booked recorder fates) (event : RecorderEvent Attempt Terminal) :
    Booked (recorder.step event).1 (fates ++ (recorder.step event).2) := by
  cases event with
  | record record => exact h.enqueue _
  | recordTerminal terminal => exact h.enqueue _
  | flush => exact h.flush
  | tick => exact h.pass _
  | writeSucceeds => exact h.writeSettles true
  | writeRefused => exact h.writeSettles false
  | drainSettles =>
    unfold Recorder.step
    dsimp only
    split
    · next hover => exact h.still rfl rfl (by rw [hover]; rfl) rfl rfl nofun
    · rw [List.append_nil]
      exact h
  | start => exact h.still rfl rfl rfl rfl rfl nofun
  | stop =>
    have hstopped : Booked { recorder with timer := false, lifecycle := recorder.lifecycle.stop.1 } (fates ++ []) :=
      h.still rfl rfl rfl rfl rfl nofun
    rw [List.append_nil] at hstopped
    exact hstopped.pass _
  | deadline => exact h.still rfl rfl rfl rfl rfl (quiet_warned _)
  | drainResumes failed =>
    have hresumed : Booked
        { recorder with
          lifecycle := (recorder.lifecycle.drainResumes failed recorder.depth recorder.outstanding).1 }
        (fates ++ Recorder.warned
          (recorder.lifecycle.drainResumes failed recorder.depth recorder.outstanding).2.1) :=
      h.still rfl rfl rfl rfl rfl (quiet_warned _)
    have hpassed := hresumed.pass (recorder.lifecycle.drainResumes failed recorder.depth recorder.outstanding).2.2
    rw [List.append_assoc] at hpassed
    exact hpassed

/-- Books in order conserve the records. -/
theorem Booked.conserved (h : Booked recorder fates) : Conserved recorder fates where
  placed := by
    rw [List.perm_iff_count]
    intro entry
    have hplaced := h.books.placed entry
    simp only [List.count_append]
    omega
  counted := by
    have hperm : (ledgerOf fates).accepted.Perm ((ledgerOf fates).written ++ recorder.inFlight ++ recorder.held ++
        recorder.queue.contents ++ (ledgerOf fates).shed ++ (ledgerOf fates).discarded) := by
      rw [List.perm_iff_count]
      intro entry
      simpa only [List.count_append] using h.books.placed entry
    rw [hperm.length_eq, h.written, h.dropped, h.discarded, Recorder.depth]
    simp only [List.length_append, BoundedQueue.length_contents]
    omega
  refusedTwice := by
    intro entry
    have hrefused := h.books.refused entry
    omega
  offers := by
    intro entry
    have hplaced := h.books.placed entry
    have hoffered := h.books.offered entry
    have htwice : (recorder.run.refusals + 1) * recorder.inFlight.count entry ≤
        2 * recorder.inFlight.count entry := Nat.mul_le_mul_right _ (Nat.succ_le_succ h.books.tried)
    omega
  observations := by
    intro entry
    have hplaced := h.books.placed entry
    have hobserved := h.books.observed entry
    omega
  alone := ⟨_, h.alone⟩
  ordered := (List.sublist_append_left ..).trans h.books.ordered

end Steps

section Received

variable {recorder : Recorder Attempt Terminal}

/-- The entry an event brings. -/
def RecorderEvent.entry? : RecorderEvent Attempt Terminal → Option (QueuedUsage Attempt Terminal)
  | .record attempt => some (.attempt attempt)
  | .recordTerminal settled => some (.terminal settled)
  | _ => none

/-- The entries that come in a run while the recorder accepts, or while it does not. -/
def received (accepting : Bool) :
    Recorder Attempt Terminal → List (RecorderEvent Attempt Terminal) → List (QueuedUsage Attempt Terminal)
  | _, [] => []
  | recorder, event :: rest =>
    (if recorder.lifecycle.accepting = accepting then event.entry?.toList else []) ++
      received accepting (recorder.step event).1 rest

/-- What a step accepts, and how many entries it counts as rejected. -/
def Takes (recorder : Recorder Attempt Terminal) (entries : List (QueuedUsage Attempt Terminal)) (rejected : Nat)
    (next : Recorder Attempt Terminal × List (UsageFate Attempt Terminal)) : Prop :=
  (ledgerOf next.2).accepted = entries ∧ next.1.rejectedAfterStop = recorder.rejectedAfterStop + rejected

/-- A turn of a drain takes nothing. -/
theorem drainAll_takes : Takes recorder [] 0 recorder.drainAll := by
  unfold Recorder.drainAll
  split
  · exact ⟨rfl, rfl⟩
  · split <;> dsimp only <;> split
    all_goals first
      | exact ⟨rfl, rfl⟩
      | exact ⟨by rw [ledgerOf_writeBatch], rfl⟩

/-- A flush takes nothing. -/
theorem flush_takes : Takes recorder [] 0 recorder.flush := by
  unfold Recorder.flush
  split
  · exact drainAll_takes
  · exact ⟨rfl, rfl⟩

/-- A pass takes nothing. -/
theorem pass_takes (begins : Bool) : Takes recorder [] 0 (recorder.pass begins) := by
  unfold Recorder.pass
  split
  · exact flush_takes
  · exact ⟨rfl, rfl⟩

/-- A warning accepts nothing. -/
theorem ledgerOf_warned (records : Option Nat) :
    (ledgerOf (Recorder.warned records : List (UsageFate Attempt Terminal))).accepted = [] := by
  cases records <;> rfl

/-- A write that settles takes nothing. -/
theorem writeSettles_takes (accepted : Bool) : Takes recorder [] 0 (recorder.writeSettles accepted) := by
  unfold Recorder.writeSettles
  split
  · next batch retried hrun =>
    split
    · exact @drainAll_takes _ _ { recorder with written := recorder.written + batch.length }
    · cases retried <;> exact ⟨rfl, rfl⟩
  · exact ⟨rfl, rfl⟩

/-- An entry is accepted while the recorder accepts, and counted as rejected while it does not. -/
theorem enqueue_takes (entry : QueuedUsage Attempt Terminal) :
    Takes recorder (if recorder.lifecycle.accepting = true then [entry] else [])
      (if recorder.lifecycle.accepting = false then 1 else 0) (recorder.enqueue entry) := by
  unfold Recorder.enqueue
  cases haccepting : recorder.lifecycle.accepting with
  | false => exact ⟨rfl, rfl⟩
  | true =>
    rw [if_neg (by decide : ¬(!true) = true)]
    refine ⟨?_, rfl⟩
    dsimp only
    cases (recorder.queue.push entry).2 <;> rfl

/-- A step accepts the entry its event brings, or counts it as rejected. -/
theorem step_takes (event : RecorderEvent Attempt Terminal) :
    Takes recorder (if recorder.lifecycle.accepting = true then event.entry?.toList else [])
      (if recorder.lifecycle.accepting = false then event.entry?.toList.length else 0) (recorder.step event) := by
  have hnothing (h : Takes recorder [] 0 (recorder.step event)) (hentry : event.entry? = none) :
      Takes recorder (if recorder.lifecycle.accepting = true then event.entry?.toList else [])
        (if recorder.lifecycle.accepting = false then event.entry?.toList.length else 0) (recorder.step event) := by
    rw [hentry]
    simpa using h
  cases event with
  | record record => exact enqueue_takes _
  | recordTerminal terminal => exact enqueue_takes _
  | flush => exact hnothing flush_takes rfl
  | tick => exact hnothing (pass_takes _) rfl
  | writeSucceeds => exact hnothing (writeSettles_takes true) rfl
  | writeRefused => exact hnothing (writeSettles_takes false) rfl
  | drainSettles =>
    refine hnothing ?_ rfl
    unfold Recorder.step
    dsimp only
    split <;> exact ⟨rfl, rfl⟩
  | start => exact hnothing ⟨rfl, rfl⟩ rfl
  | stop => exact hnothing (@pass_takes _ _ { recorder with timer := false, lifecycle := _ } _) rfl
  | deadline => exact hnothing ⟨ledgerOf_warned _, rfl⟩ rfl
  | drainResumes failed =>
    refine hnothing ?_ rfl
    have hpass := @pass_takes _ _ { recorder with
      lifecycle := (recorder.lifecycle.drainResumes failed recorder.depth recorder.outstanding).1 }
      (recorder.lifecycle.drainResumes failed recorder.depth recorder.outstanding).2.2
    refine ⟨?_, hpass.2⟩
    show (ledgerOf (Recorder.warned _ ++ _)).accepted = []
    rw [ledgerOf_append]
    exact (congrArg₂ (· ++ ·) (ledgerOf_warned _) hpass.1 :)

/-- A run accepts what it received while accepting, and counts the rest as rejected. -/
theorem run_takes (recorder : Recorder Attempt Terminal) (events : List (RecorderEvent Attempt Terminal)) :
    Takes recorder (received true recorder events) (received false recorder events).length
      (emitFrom Recorder.step recorder events) := by
  induction events generalizing recorder with
  | nil => exact ⟨rfl, rfl⟩
  | cons event rest ih =>
    obtain ⟨haccepted, hrejected⟩ := @step_takes _ _ recorder event
    obtain ⟨hlater, hmore⟩ := ih (recorder.step event).1
    rw [emitFrom_cons]
    constructor
    · rw [ledgerOf_append]
      exact (congrArg₂ (· ++ ·) haccepted hlater :)
    · dsimp only
      rw [hmore, hrejected, received, List.length_append]
      split_ifs <;> simp [Nat.add_assoc]

end Received

/-- Usage records are conserved, whatever happens to a recorder and in whatever order; the accepted ones are
those that came while it accepted, and it counts the others. -/
theorem usage_records_conserved [DecidableEq Attempt] [DecidableEq Terminal] {maxQueued batchSize : Nat}
    {recorder : Recorder Attempt Terminal}
    (hcreate : createUsageRecorder Attempt Terminal maxQueued batchSize = some recorder)
    (events : List (RecorderEvent Attempt Terminal)) :
    Conserved (emitFrom Recorder.step recorder events).1 (emitFrom Recorder.step recorder events).2 ∧
      (ledgerOf (emitFrom Recorder.step recorder events).2).accepted = received true recorder events ∧
      (emitFrom Recorder.step recorder events).1.rejectedAfterStop = (received false recorder events).length := by
  have htakes := run_takes recorder events
  obtain ⟨queue, hqueue, rfl⟩ := Option.map_eq_some_iff.mp hcreate
  have hempty : queue.contents = [] ∧ queue.dropped = 0 := by
    unfold BoundedQueue.create at hqueue
    split at hqueue
    · cases hqueue
      exact ⟨rfl, rfl⟩
    · cases hqueue
  have hstart : Booked ({ queue, batchSize } : Recorder Attempt Terminal) [] := by
    refine Booked.ends rfl ?_ rfl hempty.2 rfl rfl
    rw [hempty.1]
    exact books_blank
  exact ⟨(emitFrom_log Booked (fun _ _ event h => h.step event) events _ [] hstart).conserved, htakes.1,
    htakes.2.trans (Nat.zero_add _)⟩

/-- Two records meet a queue with room for one; the one that is left is refused, and then written. -/
theorem usage_records_conserved_refused_once :
    let events : List (RecorderEvent Nat Nat) :=
      [.record 1, .recordTerminal 2, .flush, .writeRefused, .drainSettles, .flush, .writeSucceeds]
    ∃ recorder, createUsageRecorder Nat Nat 1 1 = some recorder ∧
      Conserved (emitFrom Recorder.step recorder events).1 (emitFrom Recorder.step recorder events).2 ∧
      (ledgerOf (emitFrom Recorder.step recorder events).2).accepted = [.attempt 1, .terminal 2] ∧
      (emitFrom Recorder.step recorder events).2 =
        [.accepted (.attempt 1), .shed [], .accepted (.terminal 2), .shed [.attempt 1], .onShed (.terminal 2),
          .offered [] [2], .onWriteError [.terminal 2] false, .offered [] [2], .wrote [.terminal 2]] := by
  intro events
  have hconserved := fun recorder hcreate => @usage_records_conserved Nat Nat _ _ 1 1 recorder hcreate events
  exact ⟨_, rfl, (hconserved _ rfl).1, (hconserved _ rfl).2.1.trans rfl, rfl⟩

end MultiAiRouter.Usage
