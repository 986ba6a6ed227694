import Mathlib.Data.List.Forall2
import MultiAiRouter.Translate.Anthropic.PendingArray

/-!
# What waits is what was told

The blocks that left and the blocks that wait, together and in order, are what was told, in the order each was first
seen, with every piece told of it.
-/

namespace MultiAiRouter.Translate.Anthropic

open Common

/-- A block as it was told, piece by piece. -/
inductive Sighting
  | text (kind : FragmentKind) (startsNewBlock : Bool) (fragments : List Units)
  | call (key : CallKey) (id name : Option Units) (fragments : List Units) (completed : Bool)
  deriving DecidableEq

namespace Sighting

def isOf (key : CallKey) : Sighting → Bool
  | .text .. => false
  | .call held .. => held == key

/-- The call is told of again, with what it lacked. -/
def again (id name : Option Units) : Sighting → Sighting
  | .text kind startsNewBlock fragments => .text kind startsNewBlock fragments
  | .call key heldId heldName fragments completed => .call key (heldId.or id) (heldName.or name) fragments completed

def collect (fragment : Units) : Sighting → Sighting
  | .text kind startsNewBlock fragments => .text kind startsNewBlock (fragments ++ [fragment])
  | .call key id name fragments completed => .call key id name (fragments ++ [fragment]) completed

def complete : Sighting → Sighting
  | .text kind startsNewBlock fragments => .text kind startsNewBlock fragments
  | .call key id name fragments _ => .call key id name fragments true

/-- The block says all that was told, in order. -/
def Shows : Sighting → PendingStreamBlock → Prop
  | .text kind startsNewBlock fragments, .text said held opened _ =>
    said = fragments.flatten ∧ held = kind ∧ opened = startsNewBlock
  | .call key id name fragments completed, .call record =>
    record.key = key ∧ record.id = id ∧ record.name = name ∧ record.args = fragments.flatten ∧
      record.completed = completed
  | _, _ => False

/-- Change the one call of the key. -/
def change (key : CallKey) (change : Sighting → Sighting) : List Sighting → List Sighting
  | [] => []
  | sighting :: rest =>
      if sighting.isOf key then change sighting :: rest else sighting :: Sighting.change key change rest

/-- Text is told: it goes on with the last block of its kind, or starts one. -/
def goOn (kind : FragmentKind) (startsNewBlock : Bool) (fragment : Units) : List Sighting → List Sighting
  | [] => [.text kind startsNewBlock [fragment]]
  | [.text held opened fragments] =>
    if held = kind ∧ startsNewBlock = false then [.text held opened (fragments ++ [fragment])]
    else [.text held opened fragments, .text kind startsNewBlock [fragment]]
  | sighting :: rest => sighting :: goOn kind startsNewBlock fragment rest

end Sighting

/-- Everything that was told, in the order it was first seen: what has left, and what waits. -/
structure Sightings where
  gone : List Sighting := []
  waiting : List Sighting := []
  deriving DecidableEq

/-- Take note of an operation and its answer; what was refused was not told. -/
def Sightings.note (sightings : Sightings) : PendingOperation × PendingAnswer → Sightings
  | (.add key id name, .accepted true) =>
    let id := PendingStreamBlocks.stated id
    let name := PendingStreamBlocks.stated name
    if sightings.waiting.any (·.isOf key) then
      { sightings with waiting := Sighting.change key (·.again id name) sightings.waiting }
    else { sightings with waiting := sightings.waiting ++ [.call key id name [] false] }
  | (.append key fragment, .accepted true) =>
    { sightings with waiting := Sighting.change key (·.collect fragment) sightings.waiting }
  | (.text fragment kind startsNewBlock, .accepted true) =>
    { sightings with waiting := Sighting.goOn kind startsNewBlock fragment sightings.waiting }
  | (.done key, _) => { sightings with waiting := Sighting.change key (·.complete) sightings.waiting }
  | (_, .left blocks) =>
    { gone := sightings.gone ++ sightings.waiting.take blocks.length
      waiting := sightings.waiting.drop blocks.length }
  | _ => sightings

/-- The blocks an answer hands out. -/
def PendingAnswer.blocks : PendingAnswer → List PendingStreamBlock
  | .left blocks => blocks
  | _ => []

/-- The blocks that left, in the order they did. -/
def departed (log : List (PendingOperation × PendingAnswer)) : List PendingStreamBlock :=
  log.flatMap fun entry => entry.2.blocks

/-- One operation, and the note of it. -/
def PendingArray.turn (array : PendingArray) (operation : PendingOperation) :
    PendingArray × List (PendingOperation × PendingAnswer) :=
  ((array.step operation).1, [(operation, (array.step operation).2)])

/-- The calls that wait. -/
def waitingCalls (blocks : List PendingStreamBlock) : List PendingCall :=
  blocks.filterMap fun
    | .call call => some call
    | .text .. => none

/-- The bytes an operation asks for, where these blocks wait. -/
def PendingOperation.size (blocks : List PendingStreamBlock) : PendingOperation → ℕ
  | .add key id name =>
    let id := PendingStreamBlocks.stated id
    let name := PendingStreamBlocks.stated name
    match findCall key blocks with
    | some old =>
        utf8Length ((if old.id.isNone then id.getD [] else []) ++ (if old.name.isNone then name.getD [] else []))
    | none => utf8Length (key.toUnits ++ id.getD [] ++ name.getD []) + 128
  | .append key fragment => if (findCall key blocks).isNone then 0 else utf8Length fragment
  | .text fragment kind startsNewBlock =>
    if !startsNewBlock && (PendingStreamBlocks.joinLast kind fragment 0 blocks).isSome then utf8Length fragment
    else utf8Length fragment + 128
  | .done _ | .shift | .drain => 0

/-- The queue an array stands for. -/
def PendingArray.plain (array : PendingArray) : PendingStreamBlocks :=
  { limit := array.limit, queue := array.contents, bytes := array.bytes }

/-- The bytes charged are those of what waits and within the limit; the index knows the calls that wait, each by its
record; what left and what waits is what was told; and what is refused changes nothing. An operation does to the
array what it does to the plain queue, shifts its head, and is refused exactly when the bytes it asks for are too
many. -/
structure Accounted (limit : ℕ) (array : PendingArray) (log : List (PendingOperation × PendingAnswer)) : Prop where
  charged : array.bytes = (array.contents.map PendingStreamBlocks.chargedBytes).sum
  within : array.bytes ≤ limit
  index : array.calls.entries.map (fun entry => (entry.1, array.records[entry.2]?)) =
    (waitingCalls array.contents).map fun call => (call.key, some call)
  gone : List.Forall₂ Sighting.Shows (log.foldl Sightings.note {}).gone (departed log)
  waiting : List.Forall₂ Sighting.Shows (log.foldl Sightings.note {}).waiting array.contents
  refused : ∀ operation, (array.step operation).2 = .accepted false → (array.step operation).1 = array
  plain : ∀ operation, (array.step operation).1.plain = (array.plain.step operation).1 ∧
    (array.step operation).2 = (array.plain.step operation).2
  shifted : (array.step .shift).2 = .left array.contents.head?.toList ∧
    (array.step .shift).1.contents = array.contents.tail
  fits : ∀ operation,
    (array.step operation).2 = .accepted false ↔ limit < array.bytes + operation.size array.contents

section Charges

variable {queue merged : List PendingStreamBlock} {key : CallKey}

/-- The bytes the blocks of a queue are charged with. -/
def chargedSum (queue : List PendingStreamBlock) : ℕ := (queue.map PendingStreamBlocks.chargedBytes).sum

theorem chargedSum_append (first second : List PendingStreamBlock) :
    chargedSum (first ++ second) = chargedSum first + chargedSum second := by
  rw [chargedSum, List.map_append, List.sum_append]
  rfl

/-- A call of the queue is charged more, and nothing else is. -/
theorem chargedSum_updateCall (size : ℕ) {change : PendingCall → PendingCall}
    (hchange : ∀ call, (change call).chargedBytes = call.chargedBytes + size)
    (hfound : (findCall key queue).isSome) : chargedSum (updateCall key change queue) = chargedSum queue + size := by
  induction queue with
  | nil => cases hfound
  | cons block rest ih =>
    cases block with
    | text text kind startsNewBlock charged =>
      have hrest := ih hfound
      simp only [chargedSum, updateCall, List.map_cons, List.sum_cons] at hrest ⊢
      omega
    | call call =>
      unfold findCall at hfound
      unfold updateCall
      by_cases hkey : call.key = key
      · rw [if_pos hkey]
        simp only [chargedSum, List.map_cons, List.sum_cons, PendingStreamBlocks.chargedBytes, hchange]
        omega
      · rw [if_neg hkey] at hfound ⊢
        have hrest := ih hfound
        simp only [chargedSum, List.map_cons, List.sum_cons] at hrest ⊢
        omega

/-- A call that is done is charged as before. -/
theorem chargedSum_complete (key : CallKey) (queue : List PendingStreamBlock) :
    chargedSum (updateCall key (fun call => { call with completed := true }) queue) = chargedSum queue := by
  cases hfound : (findCall key queue).isSome with
  | true => exact chargedSum_updateCall 0 (fun _ => rfl) hfound
  | false =>
    induction queue with
    | nil => rfl
    | cons block rest ih =>
      cases block with
      | text text kind startsNewBlock charged =>
        have hrest := ih hfound
        simp only [chargedSum, updateCall, List.map_cons, List.sum_cons] at hrest ⊢
        omega
      | call call =>
        unfold updateCall
        split
        · rfl
        · next hkey =>
          unfold findCall at hfound
          rw [if_neg hkey] at hfound
          have hrest := ih hfound
          simp only [chargedSum, List.map_cons, List.sum_cons] at hrest ⊢
          omega

/-- A joined fragment is charged. -/
theorem chargedSum_joinLast {kind : FragmentKind} {fragment : Units} {size : ℕ}
    (h : PendingStreamBlocks.joinLast kind fragment size queue = some merged) :
    chargedSum merged = chargedSum queue + size := by
  rcases List.eq_nil_or_concat queue with rfl | ⟨before, block, rfl⟩
  · cases h
  · rw [List.concat_eq_append, joinLast_concat] at h
    cases block with
    | call call => cases h
    | text text held startsNewBlock charged =>
      dsimp only at h
      split at h
      · cases h
        rw [List.concat_eq_append, chargedSum_append, chargedSum_append]
        simp only [chargedSum, PendingStreamBlocks.chargedBytes, List.map_singleton, List.sum_singleton]
        omega
      · cases h

end Charges

section Balanced

variable {pending : PendingStreamBlocks} {limit : ℕ} {key : CallKey}

/-- The bytes are those of the blocks that wait, and within the limit. -/
structure Balanced (limit : ℕ) (pending : PendingStreamBlocks) : Prop where
  limit_eq : pending.limit = limit
  charged : pending.bytes = chargedSum pending.queue
  within : pending.bytes ≤ limit

/-- Bytes that are taken are charged to blocks of the queue; bytes that are refused change nothing. -/
theorem Balanced.charge (h : Balanced limit pending) {size : ℕ} {next : PendingStreamBlocks → PendingStreamBlocks}
    (hnext : pending.bytes + size ≤ limit → Balanced limit (next { pending with bytes := pending.bytes + size })) :
    Balanced limit (pending.answer ((pending.charge size).map next)).1 := by
  unfold PendingStreamBlocks.charge
  have hlimit := h.limit_eq
  split
  · exact h
  · exact hnext (by omega)

/-- Every operation keeps the charge. -/
theorem Balanced.step (h : Balanced limit pending) (operation : PendingOperation) :
    Balanced limit (pending.step operation).1 := by
  have hcharged := h.charged
  cases operation with
  | add key id name =>
    unfold PendingStreamBlocks.step PendingStreamBlocks.add
    dsimp only
    cases hfound : findCall key pending.queue with
    | some old =>
      refine h.charge fun hroom => ⟨h.limit_eq, ?_, hroom⟩
      rw [chargedSum_updateCall _ (fun _ => rfl) (by rw [hfound]; rfl), ← hcharged]
    | none =>
      refine h.charge fun hroom => ⟨h.limit_eq, ?_, hroom⟩
      rw [chargedSum_append, ← hcharged]
      rfl
  | append key fragment =>
    unfold PendingStreamBlocks.step PendingStreamBlocks.append
    dsimp only
    cases hfound : findCall key pending.queue with
    | some old =>
      refine h.charge fun hroom => ⟨h.limit_eq, ?_, hroom⟩
      rw [chargedSum_updateCall _ (fun _ => rfl) (by rw [hfound]; rfl), ← hcharged]
    | none => exact h
  | text fragment kind startsNewBlock =>
    unfold PendingStreamBlocks.step PendingStreamBlocks.text
    dsimp only
    split
    · next merged hmerged =>
      split at hmerged
      · cases hmerged
      · refine h.charge fun hroom => ⟨h.limit_eq, ?_, hroom⟩
        rw [chargedSum_joinLast hmerged, ← hcharged]
    · refine h.charge fun hroom => ⟨h.limit_eq, ?_, hroom⟩
      rw [chargedSum_append, ← hcharged]
      rfl
  | done key => exact { h with charged := h.charged.trans (chargedSum_complete key _).symm }
  | shift =>
    have hwithin := h.within
    unfold PendingStreamBlocks.step PendingStreamBlocks.dropFirst
    dsimp only
    split
    · exact h
    · next block rest hqueue =>
      rw [hqueue, chargedSum, List.map_cons, List.sum_cons] at hcharged
      refine ⟨h.limit_eq, ?_, ?_⟩
      · change pending.bytes - PendingStreamBlocks.chargedBytes block = chargedSum rest
        rw [chargedSum]
        omega
      · change pending.bytes - PendingStreamBlocks.chargedBytes block ≤ limit
        omega
  | drain => exact ⟨h.limit_eq, rfl, Nat.zero_le _⟩

end Balanced

section Shown

variable {waiting gone : List Sighting} {queue merged left : List PendingStreamBlock} {key : CallKey}

/-- A sighting waits exactly when its call is queued. -/
theorem isOf_any (h : List.Forall₂ Sighting.Shows waiting queue) (key : CallKey) :
    waiting.any (·.isOf key) = (findCall key queue).isSome := by
  induction h with
  | nil => rfl
  | @cons sighting block _ _ hfirst _ ih =>
    rw [List.any_cons, ih]
    cases sighting with
    | text kind startsNewBlock fragments =>
      cases block with
      | text => rfl
      | call => exact hfirst.elim
    | call held id name fragments completed =>
      cases block with
      | text => exact hfirst.elim
      | call call =>
        obtain ⟨rfl, -⟩ := hfirst
        change (call.key == key || _) = (if call.key = key then some call else _).isSome
        by_cases hsame : call.key = key
        · rw [if_pos hsame, hsame, beq_self_eq_true]
          rfl
        · rw [if_neg hsame, beq_false_of_ne hsame, Bool.false_or]

/-- A change of the call of the key is a change of what was told of it. -/
theorem shows_change {change : Sighting → Sighting} {changed : PendingCall → PendingCall}
    (hchange : ∀ sighting call, Sighting.Shows sighting (.call call) →
      Sighting.Shows (change sighting) (.call (changed call)))
    (h : List.Forall₂ Sighting.Shows waiting queue) (key : CallKey) :
    List.Forall₂ Sighting.Shows (Sighting.change key change waiting) (updateCall key changed queue) := by
  induction h with
  | nil => exact .nil
  | @cons sighting block _ _ hfirst hrest ih =>
    cases sighting with
    | text kind startsNewBlock fragments =>
      cases block with
      | text => exact .cons hfirst ih
      | call => exact hfirst.elim
    | call held id name fragments completed =>
      cases block with
      | text => exact hfirst.elim
      | call call =>
        have hkey : call.key = held := hfirst.1
        unfold Sighting.change updateCall Sighting.isOf
        dsimp only
        by_cases hsame : call.key = key
        · rw [if_pos hsame, if_pos (by rw [← hkey, hsame, beq_self_eq_true])]
          exact .cons (hchange _ _ hfirst) hrest
        · rw [if_neg hsame, if_neg (by rw [← hkey, beq_false_of_ne hsame]; exact Bool.false_ne_true)]
          exact .cons hfirst ih

theorem shows_text (fragment : Units) (kind : FragmentKind) (startsNewBlock : Bool) (size : ℕ) :
    Sighting.Shows (.text kind startsNewBlock [fragment]) (.text fragment kind startsNewBlock size) :=
  ⟨(List.append_nil fragment).symm, rfl, rfl⟩

/-- Text is told of the last block alone. -/
theorem goOn_cons {kind : FragmentKind} {startsNewBlock : Bool} {fragment : Units} (first second : Sighting)
    (rest : List Sighting) : Sighting.goOn kind startsNewBlock fragment (first :: second :: rest) =
      first :: Sighting.goOn kind startsNewBlock fragment (second :: rest) := by
  cases first <;> rfl

/-- Only the last block is joined. -/
theorem joinLast_cons {kind : FragmentKind} {fragment : Units} {size : ℕ} (first second : PendingStreamBlock)
    (rest : List PendingStreamBlock) : PendingStreamBlocks.joinLast kind fragment size (first :: second :: rest) =
      (PendingStreamBlocks.joinLast kind fragment size (second :: rest)).map (first :: ·) := by
  cases first <;> rfl

/-- Text that starts a block, or finds no text of its kind at the end, comes last. -/
theorem shows_goOn_apart (h : List.Forall₂ Sighting.Shows waiting queue) {fragment : Units} {kind : FragmentKind}
    {startsNewBlock : Bool} (size : ℕ) {charged : ℕ}
    (hapart : startsNewBlock = false → PendingStreamBlocks.joinLast kind fragment size queue = none) :
    List.Forall₂ Sighting.Shows (Sighting.goOn kind startsNewBlock fragment waiting)
      (queue ++ [.text fragment kind startsNewBlock charged]) := by
  have hnew := shows_text fragment kind startsNewBlock charged
  induction h with
  | nil => exact .cons hnew .nil
  | @cons sighting block _ _ hfirst hrest ih =>
    cases hrest with
    | cons hsecond hlater =>
      rw [goOn_cons]
      refine .cons hfirst (ih fun hfalse => ?_)
      exact Option.map_eq_none_iff.mp ((joinLast_cons ..).symm.trans (hapart hfalse))
    | nil =>
      cases sighting with
      | call held id name fragments completed => exact .cons hfirst (.cons hnew .nil)
      | text held opened fragments =>
        cases block with
        | call => exact hfirst.elim
        | text text kept starts charged =>
          have hkept : kept = held := hfirst.2.1
          have hother : ¬ (held = kind ∧ startsNewBlock = false) := by
            rintro ⟨rfl, hfalse⟩
            have hnone := hapart hfalse
            rw [PendingStreamBlocks.joinLast, if_pos hkept] at hnone
            cases hnone
          rw [Sighting.goOn, if_neg hother]
          exact .cons hfirst (.cons hnew .nil)

/-- Text that joins the last block goes on with what was told of it. -/
theorem shows_goOn_joined (h : List.Forall₂ Sighting.Shows waiting queue) {fragment : Units} {kind : FragmentKind}
    {size : ℕ} (hjoined : PendingStreamBlocks.joinLast kind fragment size queue = some merged) :
    List.Forall₂ Sighting.Shows (Sighting.goOn kind false fragment waiting) merged := by
  induction h generalizing merged with
  | nil => cases hjoined
  | @cons sighting block _ _ hfirst hrest ih =>
    cases hrest with
    | cons hsecond hlater =>
      rw [joinLast_cons] at hjoined
      obtain ⟨joined, hlast, rfl⟩ := Option.map_eq_some_iff.mp hjoined
      rw [goOn_cons]
      exact .cons hfirst (ih hlast)
    | nil =>
      cases block with
      | call => cases hjoined
      | text text kept starts charged =>
        cases sighting with
        | call => exact hfirst.elim
        | text held opened fragments =>
          obtain ⟨hsaid, rfl, rfl⟩ := hfirst
          rw [PendingStreamBlocks.joinLast] at hjoined
          split at hjoined
          · next hkind =>
            cases hjoined
            rw [Sighting.goOn, if_pos ⟨hkind, rfl⟩]
            exact .cons ⟨by rw [hsaid, List.flatten_append, List.flatten_singleton], rfl, rfl⟩ .nil
          · cases hjoined

/-- The first blocks leave, and so does what was told of them. -/
theorem shows_leave {sightings : Sightings} (leaving : List PendingStreamBlock)
    (hgone : List.Forall₂ Sighting.Shows sightings.gone left)
    (hwaiting : List.Forall₂ Sighting.Shows sightings.waiting (leaving ++ queue)) :
    List.Forall₂ Sighting.Shows (sightings.gone ++ sightings.waiting.take leaving.length) (left ++ leaving) ∧
      List.Forall₂ Sighting.Shows (sightings.waiting.drop leaving.length) queue :=
  ⟨List.rel_append hgone (List.forall₂_take_append _ _ _ hwaiting), List.forall₂_drop_append _ _ _ hwaiting⟩

end Shown

section Told

variable {sightings : Sightings} {pending : PendingStreamBlocks} {left : List PendingStreamBlock}

/-- What has left and what waits is what was told. -/
structure Told (sightings : Sightings) (left : List PendingStreamBlock) (pending : PendingStreamBlocks) : Prop where
  gone : List.Forall₂ Sighting.Shows sightings.gone left
  waiting : List.Forall₂ Sighting.Shows sightings.waiting pending.queue

/-- What is refused is not told, and changes nothing. -/
theorem Told.charge (h : Told sightings left pending) {operation : PendingOperation} {size : ℕ}
    {next : PendingStreamBlocks → PendingStreamBlocks}
    (hrefused : sightings.note (operation, .accepted false) = sightings)
    (hnext : Told (sightings.note (operation, .accepted true)) left
      (next { pending with bytes := pending.bytes + size })) :
    Told (sightings.note (operation, (pending.answer ((pending.charge size).map next)).2))
      (left ++ (pending.answer ((pending.charge size).map next)).2.blocks)
      (pending.answer ((pending.charge size).map next)).1 := by
  unfold PendingStreamBlocks.charge
  change Told _ (left ++ []) _
  rw [List.append_nil]
  split
  · change Told (sightings.note (operation, .accepted false)) left pending
    rw [hrefused]
    exact h
  · exact hnext

/-- Every operation is told. -/
theorem Told.step (h : Told sightings left pending) (operation : PendingOperation) :
    Told (sightings.note (operation, (pending.step operation).2)) (left ++ (pending.step operation).2.blocks)
      (pending.step operation).1 := by
  have hwaiting := h.waiting
  cases operation with
  | add key id name =>
    have hknown := isOf_any hwaiting key
    unfold PendingStreamBlocks.step PendingStreamBlocks.add
    dsimp only
    cases hfound : findCall key pending.queue with
    | some old =>
      have hsighted : sightings.waiting.any (·.isOf key) = true := by rw [hknown, hfound]; rfl
      refine h.charge rfl ?_
      rw [Sightings.note, if_pos hsighted]
      refine ⟨h.gone, shows_change (fun sighting call hshows => ?_) hwaiting key⟩
      cases sighting with
      | text => exact hshows.elim
      | call held heldId heldName fragments completed =>
        obtain ⟨hkey, rfl, rfl, hrest⟩ := hshows
        exact ⟨hkey, rfl, rfl, hrest⟩
    | none =>
      have hunseen : ¬ sightings.waiting.any (·.isOf key) = true := by rw [hknown, hfound]; exact Bool.false_ne_true
      refine h.charge rfl ?_
      rw [Sightings.note, if_neg hunseen]
      exact ⟨h.gone, List.rel_append hwaiting (.cons ⟨rfl, rfl, rfl, rfl, rfl⟩ .nil)⟩
  | append key fragment =>
    have hcollected (size : ℕ) : List.Forall₂ Sighting.Shows
        (Sighting.change key (·.collect fragment) sightings.waiting)
        (updateCall key (fun call =>
          { call with chargedBytes := call.chargedBytes + size, args := call.args ++ fragment }) pending.queue) := by
      refine shows_change (fun sighting call hshows => ?_) hwaiting key
      cases sighting with
      | text => exact hshows.elim
      | call held heldId heldName fragments completed =>
        obtain ⟨hkey, hid, hname, hargs, hcompleted⟩ := hshows
        exact ⟨hkey, hid, hname, by rw [hargs, List.flatten_append, List.flatten_singleton], hcompleted⟩
    unfold PendingStreamBlocks.step PendingStreamBlocks.append
    dsimp only
    cases hfound : findCall key pending.queue with
    | some old => exact h.charge rfl ⟨h.gone, hcollected _⟩
    | none =>
      have hsame := hcollected 0
      rw [updateCall_of_none _ hfound] at hsame
      exact ⟨(List.append_nil left).symm ▸ h.gone, hsame⟩
  | text fragment kind startsNewBlock =>
    unfold PendingStreamBlocks.step PendingStreamBlocks.text
    dsimp only
    split
    · next merged hmerged =>
      cases startsNewBlock with
      | true => cases hmerged
      | false => exact h.charge rfl ⟨h.gone, shows_goOn_joined hwaiting hmerged⟩
    · next hnone =>
      refine h.charge rfl ⟨h.gone, shows_goOn_apart hwaiting (utf8Length fragment) ?_⟩
      rintro rfl
      exact hnone
  | done key =>
    refine ⟨(List.append_nil left).symm ▸ h.gone, shows_change (fun sighting call hshows => ?_) hwaiting key⟩
    cases sighting with
    | text => exact hshows.elim
    | call held heldId heldName fragments completed =>
      obtain ⟨hkey, hid, hname, hargs, -⟩ := hshows
      exact ⟨hkey, hid, hname, hargs, rfl⟩
  | shift =>
    unfold PendingStreamBlocks.step PendingStreamBlocks.dropFirst
    dsimp only
    split
    · next hqueue =>
      rw [hqueue]
      obtain ⟨hgone, hrest⟩ := shows_leave [] h.gone hwaiting
      exact ⟨hgone, hrest⟩
    · next block rest hqueue =>
      rw [hqueue] at hwaiting ⊢
      obtain ⟨hgone, hrest⟩ := shows_leave [block] h.gone hwaiting
      exact ⟨hgone, hrest⟩
  | drain =>
    rw [← List.append_nil pending.queue] at hwaiting
    obtain ⟨hgone, hrest⟩ := shows_leave _ h.gone hwaiting
    exact ⟨hgone, hrest⟩

end Told

section Accounted

variable {array : PendingArray} {slots : List QueueSlot}

/-- The index knows the calls that wait. -/
theorem Laid.index_eq {records : List PendingCall} {blocks : List PendingStreamBlock} {index : List (CallKey × ℕ)}
    (h : Laid records slots blocks index) :
    index.map (fun entry => (entry.1, records[entry.2]?)) =
      (waitingCalls blocks).map fun call => (call.key, some call) := by
  induction h with
  | nil => rfl
  | text units kind startsNewBlock charged _ ih => exact ih
  | call record call hrecord _ ih =>
    rw [List.map_cons, ih, hrecord]
    rfl

/-- An operation that is refused leaves the array as it is. -/
theorem PendingArray.step_refused (operation : PendingOperation)
    (hrefused : (array.step operation).2 = .accepted false) : (array.step operation).1 = array := by
  revert hrefused
  -- A charge that is refused leaves the array, and one that is taken is no refusal.
  cases operation with
  | add key id name =>
    unfold step add
    dsimp only
    split
    · split
      · exact fun _ => rfl
      · exact fun h => by cases h
    · split
      · exact fun _ => rfl
      · exact fun h => by cases h
  | append key fragment =>
    unfold step append
    dsimp only
    split
    · exact fun _ => rfl
    · split
      · exact fun _ => rfl
      · exact fun h => by cases h
  | text fragment kind startsNewBlock =>
    unfold step text pushText
    dsimp only
    split
    · split
      · exact fun _ => rfl
      · exact fun h => by cases h
    · split
      · exact fun _ => rfl
      · exact fun h => by cases h
  | done key => exact fun h => by cases h
  | shift => exact fun h => by cases h
  | drain => exact fun h => by cases h

/-- Whether text joins does not depend on what it is charged. -/
theorem joinLast_isSome (kind : FragmentKind) (fragment : Units) (size : ℕ) (blocks : List PendingStreamBlock) :
    (PendingStreamBlocks.joinLast kind fragment size blocks).isSome =
      (PendingStreamBlocks.joinLast kind fragment 0 blocks).isSome := by
  induction blocks with
  | nil => rfl
  | cons block rest ih =>
    cases rest with
    | nil =>
      cases block with
      | text units held startsNewBlock charged =>
        unfold PendingStreamBlocks.joinLast
        split <;> rfl
      | call call => rfl
    | cons second rest => simpa [PendingStreamBlocks.joinLast] using ih

/-- The plain queue refuses what asks for too many bytes, and nothing else. -/
theorem PendingStreamBlocks.refuses_iff {pending : PendingStreamBlocks} (hwithin : pending.bytes ≤ pending.limit)
    (operation : PendingOperation) :
    (pending.step operation).2 = .accepted false ↔ pending.limit < pending.bytes + operation.size pending.queue := by
  have hcharge (size : ℕ) (next : PendingStreamBlocks → PendingStreamBlocks) :
      (pending.answer ((pending.charge size).map next)).2 = .accepted false ↔ pending.limit < pending.bytes + size := by
    unfold answer charge
    split_ifs with hless <;> simp [hless]
  cases operation with
  | add key id name =>
    unfold step add PendingOperation.size
    dsimp only
    cases findCall key pending.queue <;> exact hcharge _ _
  | append key fragment =>
    unfold step append PendingOperation.size
    dsimp only
    cases findCall key pending.queue with
    | none => simpa [answer] using hwithin
    | some call => exact hcharge _ _
  | text fragment kind startsNewBlock =>
    unfold step text PendingOperation.size
    dsimp only
    rw [← joinLast_isSome kind fragment (utf8Length fragment)]
    cases startsNewBlock with
    | true => exact hcharge _ _
    | false =>
      cases hjoin : joinLast kind fragment (utf8Length fragment) pending.queue with
      | none => simpa [hjoin] using hcharge _ _
      | some queue => simpa [hjoin] using hcharge _ _
  | done key | shift | drain => simpa [step, PendingOperation.size] using hwithin

/-- The array holds a queue whose bytes are in balance and that holds what was told. -/
def Recounted (limit : ℕ) (array : PendingArray) (log : List (PendingOperation × PendingAnswer)) : Prop :=
  ∃ pending slots, Stands array pending slots ∧ Balanced limit pending ∧
    Told (log.foldl Sightings.note {}) (departed log) pending

/-- Every operation is recounted. -/
theorem Recounted.turn {limit : ℕ} (array : PendingArray) (log : List (PendingOperation × PendingAnswer))
    (operation : PendingOperation) (h : Recounted limit array log) :
    Recounted limit (array.turn operation).1 (log ++ (array.turn operation).2) := by
  obtain ⟨pending, slots, hstands, hbalanced, htold⟩ := h
  obtain ⟨later, hnext, hanswer⟩ := hstands.step operation
  refine ⟨_, later, hnext, hbalanced.step operation, ?_⟩
  have hnoted := htold.step operation
  rw [← hanswer] at hnoted
  unfold departed at hnoted ⊢
  rw [PendingArray.turn, List.foldl_append, List.flatMap_append, List.flatMap_singleton]
  exact hnoted

/-- What is recounted is accounted for. -/
theorem Recounted.accounted {limit : ℕ} {log : List (PendingOperation × PendingAnswer)}
    (h : Recounted limit array log) :
    Accounted limit array log := by
  obtain ⟨pending, slots, hstands, hbalanced, htold⟩ := h
  have hcontents := hstands.contents_eq
  have hplain {array pending slots} (h : Stands array pending slots) : array.plain = pending := by
    rw [PendingArray.plain, h.limit_eq, h.contents_eq, h.bytes_eq]
  have hanswer (operation : PendingOperation) : (array.step operation).1.plain = (array.plain.step operation).1 ∧
      (array.step operation).2 = (array.plain.step operation).2 := by
    obtain ⟨later, hnext, hsame⟩ := hstands.step operation
    rw [hplain hstands]
    exact ⟨hplain hnext, hsame⟩
  exact {
    charged := by rw [hstands.bytes_eq, hcontents]; exact hbalanced.charged
    within := hstands.bytes_eq ▸ hbalanced.within
    index := by rw [hcontents]; exact hstands.laid.index_eq
    gone := htold.gone
    waiting := by rw [hcontents]; exact htold.waiting
    refused := PendingArray.step_refused
    plain := hanswer
    shifted := by
      refine ⟨(hanswer .shift).2, (congrArg PendingStreamBlocks.queue (hanswer .shift).1).trans ?_⟩
      show array.plain.dropFirst.queue = array.plain.queue.tail
      unfold PendingStreamBlocks.dropFirst
      split <;> simp [*]
    fits := fun operation => by
      have hwithin : pending.bytes ≤ pending.limit := hbalanced.limit_eq ▸ hbalanced.within
      rw [(hanswer operation).2, hplain hstands, PendingStreamBlocks.refuses_iff hwithin, hbalanced.limit_eq,
        hstands.bytes_eq, hcontents] }

end Accounted

/-- After every sequence of operations the bytes charged are those of the blocks that wait, the index knows exactly
the calls that wait, what left and what waits is what was told, in the order of first sighting, and an operation is
refused exactly when it does not fit, and then changes nothing. -/
theorem pending_blocks_accounted {maximumPendingBytes : Option ℤ} {start : PendingArray}
    (hcreate : createPendingStreamBlocks maximumPendingBytes = some start) (operations : List PendingOperation) :
    Accounted start.limit (emitFrom PendingArray.turn start operations).1
      (emitFrom PendingArray.turn start operations).2 := by
  obtain ⟨limit, -, rfl⟩ := Option.map_eq_some_iff.mp hcreate
  have hstart : Recounted limit { limit } [] :=
    ⟨{ limit }, [], ⟨rfl, rfl, rfl, fun _ => rfl, .nil, .nil⟩, ⟨rfl, rfl, Nat.zero_le _⟩, ⟨.nil, .nil⟩⟩
  exact (emitFrom_log (Recounted limit) Recounted.turn operations { limit } [] hstart).accounted

/-- A call is told of, gets an argument, and leaves. -/
theorem pending_blocks_accounted_shift :
    let operations : List PendingOperation := [.add (.number 0) none none, .append (.number 0) [123], .shift]
    ∃ start, createPendingStreamBlocks (some 1024) = some start ∧
      Accounted 1024 (emitFrom PendingArray.turn start operations).1 (emitFrom PendingArray.turn start operations).2 ∧
      (emitFrom PendingArray.turn start operations).2.map Prod.snd = [.accepted true, .accepted true,
        .left [.call { key := .number 0, id := none, name := none, args := [123], completed := false
                       chargedBytes := 130 }]] := by
  intro operations
  exact ⟨_, rfl, @pending_blocks_accounted (some 1024) _ rfl operations, rfl⟩

end MultiAiRouter.Translate.Anthropic
