import MultiAiRouter.Common.Emit
import MultiAiRouter.Common.InsertionMap
import MultiAiRouter.Translate.Anthropic.Emitter

/-!
# The array of fragments that wait

`createPendingStreamBlocks` as it is kept: an array whose taken slots are emptied and cut off once they are half of
it, records of calls that are changed where they stand, and an index from a key to its record. Each operation on the
array is the operation on the queue of fragments.
-/

namespace MultiAiRouter.Translate.Anthropic

open Common

/-- The bytes that may wait: a mebibyte, or an integer within the bounds. -/
def translationPendingLimit (value : Option ℤ) : Option ℕ :=
  let limit := value.getD 1048576
  if limit < 1024 ∨ 33554432 < limit then none else some limit.toNat

/-- What stands in the array: text, or the number of a call's record. -/
inductive QueueSlot
  | text (text : Units) (kind : FragmentKind) (startsNewBlock : Bool) (chargedBytes : ℕ)
  | call (record : ℕ)
  deriving DecidableEq

/-- The array and its head, every record that was made, and the records that are known by a key. -/
structure PendingArray where
  limit : ℕ
  records : List PendingCall := []
  queue : List (Option QueueSlot) := []
  head : ℕ := 0
  calls : InsertionMap CallKey ℕ := {}
  bytes : ℕ := 0

/-- What is asked of the fragments that wait. -/
inductive PendingOperation
  | add (key : CallKey) (id name : Option Units)
  | append (key : CallKey) (fragment : Units)
  | text (fragment : Units) (kind : FragmentKind) (startsNewBlock : Bool)
  | done (key : CallKey)
  | shift
  | drain
  deriving DecidableEq

/-- What is answered: whether the bytes were taken, nothing, or the blocks that leave. -/
inductive PendingAnswer
  | accepted (taken : Bool)
  | noted
  | left (blocks : List PendingStreamBlock)
  deriving DecidableEq

def createPendingStreamBlocks (maximumPendingBytes : Option ℤ) : Option PendingArray :=
  (translationPendingLimit maximumPendingBytes).map fun limit => { limit }

/-- The block a slot stands for. -/
def QueueSlot.read (records : List PendingCall) : QueueSlot → Option PendingStreamBlock
  | .text units kind startsNewBlock charged => some (.text units kind startsNewBlock charged)
  | .call record => records[record]?.map .call

namespace PendingArray

/-- The blocks that wait. -/
def contents (array : PendingArray) : List PendingStreamBlock :=
  (array.queue.drop array.head).filterMap fun slot => slot.bind (·.read array.records)

/-- The record a key is known by. -/
def find (array : PendingArray) (key : CallKey) : Option (ℕ × PendingCall) :=
  (array.calls.get key).bind fun record => array.records[record]?.map fun call => (record, call)

/-- Charge the bytes, or refuse them. -/
def charge (array : PendingArray) (size : ℕ) : Bool × PendingArray :=
  if array.limit < array.bytes + size then (false, array) else (true, { array with bytes := array.bytes + size })

/-- Change a record where it stands. -/
def write (array : PendingArray) (record : ℕ) (call : PendingCall) : PendingArray :=
  { array with records := array.records.set record call }

def add (array : PendingArray) (key : CallKey) (id name : Option Units) : PendingArray × PendingAnswer :=
  let id := PendingStreamBlocks.stated id
  let name := PendingStreamBlocks.stated name
  match array.find key with
  | some (record, old) =>
    let extra := (if old.id.isNone then id.getD [] else []) ++ (if old.name.isNone then name.getD [] else [])
    let size := utf8Length extra
    match array.charge size with
    | (false, _) => (array, .accepted false)
    | (true, charged) =>
      (charged.write record
        { old with chargedBytes := old.chargedBytes + size, id := old.id.or id, name := old.name.or name },
        .accepted true)
  | none =>
    let size := utf8Length (key.toUnits ++ id.getD [] ++ name.getD []) + 128
    match array.charge size with
    | (false, _) => (array, .accepted false)
    | (true, charged) =>
      ({ charged with
          records := charged.records ++ [{ key, id, name, args := [], completed := false, chargedBytes := size }]
          calls := charged.calls.set key charged.records.length
          queue := charged.queue ++ [some (.call charged.records.length)] },
        .accepted true)

def append (array : PendingArray) (key : CallKey) (fragment : Units) : PendingArray × PendingAnswer :=
  match array.find key with
  | none => (array, .accepted true)
  | some (record, call) =>
    let size := utf8Length fragment
    match array.charge size with
    | (false, _) => (array, .accepted false)
    | (true, charged) =>
      (charged.write record { call with chargedBytes := call.chargedBytes + size, args := call.args ++ fragment },
        .accepted true)

/-- The text at the end of the array, where it is text of the kind. -/
def lastText (array : PendingArray) (kind : FragmentKind) : Option (Units × Bool × ℕ) :=
  match array.queue.getLast?.join with
  | some (.text text held startsNewBlock charged) =>
    if held = kind then some (text, startsNewBlock, charged) else none
  | _ => none

/-- Text of its own comes last. -/
def pushText (array : PendingArray) (fragment : Units) (kind : FragmentKind) (startsNewBlock : Bool) (size : ℕ) :
    PendingArray × PendingAnswer :=
  match array.charge size with
  | (false, _) => (array, .accepted false)
  | (true, charged) =>
    ({ charged with queue := charged.queue ++ [some (.text fragment kind startsNewBlock size)] }, .accepted true)

def text (array : PendingArray) (fragment : Units) (kind : FragmentKind) (startsNewBlock : Bool) :
    PendingArray × PendingAnswer :=
  match if startsNewBlock then none else array.lastText kind with
  | some (held, opened, chargedBytes) =>
    let size := utf8Length fragment
    match array.charge size with
    | (false, _) => (array, .accepted false)
    | (true, charged) =>
      ({ charged with
          queue := charged.queue.dropLast ++ [some (.text (held ++ fragment) kind opened (chargedBytes + size))] },
        .accepted true)
  | none => array.pushText fragment kind startsNewBlock (utf8Length fragment + 128)

def done (array : PendingArray) (key : CallKey) : PendingArray :=
  match array.find key with
  | none => array
  | some (record, call) => array.write record { call with completed := true }

/-- The taken slots are cut off once they are half of the array. -/
def splice (array : PendingArray) : PendingArray :=
  if array.queue.length ≤ array.head * 2 then { array with queue := array.queue.drop array.head, head := 0 } else array

/-- The key is not known any longer. -/
def forget (array : PendingArray) (key : CallKey) : PendingArray := { array with calls := array.calls.delete key }

def shift (array : PendingArray) : PendingArray × Option PendingStreamBlock :=
  match (array.queue[array.head]?.join).bind (·.read array.records) with
  | none => (array, none)
  | some item =>
    let taken := { array with queue := array.queue.set array.head none, head := array.head + 1 }.splice
    let left := match item with
      | .text .. => taken
      | .call call => taken.forget call.key
    ({ left with bytes := left.bytes - PendingStreamBlocks.chargedBytes item }, some item)

def drain (array : PendingArray) : PendingArray × List PendingStreamBlock :=
  ({ array with queue := [], head := 0, calls := {}, bytes := 0 }, array.contents)

/-- One operation. -/
def step (array : PendingArray) : PendingOperation → PendingArray × PendingAnswer
  | .add key id name => array.add key id name
  | .append key fragment => array.append key fragment
  | .text fragment kind startsNewBlock => array.text fragment kind startsNewBlock
  | .done key => (array.done key, .noted)
  | .shift => (array.shift.1, .left array.shift.2.toList)
  | .drain => (array.drain.1, .left array.drain.2)

end PendingArray

namespace PendingStreamBlocks

/-- The answer to bytes that are taken or refused. -/
def answer (pending : PendingStreamBlocks) (next : Option PendingStreamBlocks) : PendingStreamBlocks × PendingAnswer :=
  (next.getD pending, .accepted next.isSome)

/-- One operation on the queue. -/
def step (pending : PendingStreamBlocks) : PendingOperation → PendingStreamBlocks × PendingAnswer
  | .add key id name => pending.answer (pending.add key id name)
  | .append key fragment => pending.answer (pending.append key fragment)
  | .text fragment kind startsNewBlock => pending.answer (pending.text fragment kind startsNewBlock)
  | .done key => (pending.done key, .noted)
  | .shift => (pending.dropFirst, .left pending.queue.head?.toList)
  | .drain => (pending.drained, .left pending.queue)

end PendingStreamBlocks

/-- The slots read as the blocks, and the index lists their calls in order. -/
inductive Laid (records : List PendingCall) :
    List QueueSlot → List PendingStreamBlock → List (CallKey × ℕ) → Prop
  | nil : Laid records [] [] []
  | text {slots blocks index} (units : Units) (kind : FragmentKind) (startsNewBlock : Bool) (charged : ℕ) :
    Laid records slots blocks index → Laid records (.text units kind startsNewBlock charged :: slots)
        (.text units kind startsNewBlock charged :: blocks) index
  | call {slots blocks index} (record : ℕ) (call : PendingCall) :
    records[record]? = some call → Laid records slots blocks index →
      Laid records (.call record :: slots) (.call call :: blocks) ((call.key, record) :: index)

section Laid

variable {records : List PendingCall} {slots : List QueueSlot} {blocks : List PendingStreamBlock}
  {index : List (CallKey × ℕ)} {key : CallKey} {record : ℕ} {call : PendingCall}

/-- What the slots read is the blocks. -/
theorem Laid.filterMap_read (h : Laid records slots blocks index) : slots.filterMap (·.read records) = blocks := by
  induction h with
  | nil => rfl
  | text units kind startsNewBlock charged _ ih => exact congrArg (_ :: ·) ih
  | call record call hrecord _ ih =>
    have hread : QueueSlot.read records (.call record) = some (.call call) := by
      rw [QueueSlot.read, hrecord, Option.map_some]
    rw [List.filterMap_cons_some hread, ih]

/-- Slots are laid behind slots. -/
theorem Laid.append {more : List QueueSlot} {later : List PendingStreamBlock} {added : List (CallKey × ℕ)}
    (h : Laid records slots blocks index) (hmore : Laid records more later added) :
    Laid records (slots ++ more) (blocks ++ later) (index ++ added) := by
  induction h with
  | nil => exact hmore
  | text text kind startsNewBlock charged _ ih => exact .text text kind startsNewBlock charged ih
  | call record call hrecord _ ih => exact .call record call hrecord ih

/-- Slots read the same where the records they name are the same. -/
theorem Laid.congr {changed : List PendingCall} (h : Laid records slots blocks index)
    (hsame : ∀ entry ∈ index, changed[entry.2]? = records[entry.2]?) : Laid changed slots blocks index := by
  induction h with
  | nil => exact .nil
  | text text kind startsNewBlock charged _ ih => exact .text text kind startsNewBlock charged (ih hsame)
  | call record call hrecord _ ih =>
    have hfirst := hsame (call.key, record) (List.mem_cons_self ..)
    exact .call record call (hfirst.trans hrecord) (ih fun entry hentry => hsame entry (.tail _ hentry))

/-- The index points at records that are there. -/
theorem Laid.valid (h : Laid records slots blocks index) : ∀ entry ∈ index, entry.2 < records.length := by
  induction h with
  | nil => nofun
  | text text kind startsNewBlock charged _ ih => exact ih
  | call record call hrecord _ ih =>
    rintro entry (_ | ⟨_, hentry⟩)
    · exact (List.getElem?_eq_some_iff.mp hrecord).1
    · exact ih entry hentry

/-- A key of the index is found in the queue, as the record the index names. -/
theorem Laid.find (h : Laid records slots blocks index) (hnodup : (index.map Prod.fst).Nodup)
    (hmem : (key, record) ∈ index) :
    ∃ call, records[record]? = some call ∧ call.key = key ∧ findCall key blocks = some call := by
  induction h with
  | nil => cases hmem
  | text text kind startsNewBlock charged _ ih => exact ih hnodup hmem
  | call held call hrecord _ ih =>
    rw [List.map_cons, List.nodup_cons] at hnodup
    unfold findCall
    cases hmem with
    | head => exact ⟨call, hrecord, rfl, if_pos rfl⟩
    | tail _ hmem =>
      have hne : call.key ≠ key := fun hkey => hnodup.1 (List.mem_map.mpr ⟨_, hmem, hkey.symm⟩)
      rw [if_neg hne]
      exact ih hnodup.2 hmem

/-- A key that is not in the index is not in the queue. -/
theorem Laid.absent (h : Laid records slots blocks index) (hkey : key ∉ index.map Prod.fst) :
    findCall key blocks = none := by
  induction h with
  | nil => rfl
  | text units kind startsNewBlock charged _ ih => exact ih hkey
  | call held call hrecord _ ih =>
    rw [List.map_cons, List.mem_cons, not_or] at hkey
    unfold findCall
    rw [if_neg (Ne.symm hkey.1)]
    exact ih hkey.2

/-- A key that is not in the queue has nothing to change. -/
theorem updateCall_of_none (change : PendingCall → PendingCall) (h : findCall key blocks = none) :
    updateCall key change blocks = blocks := by
  induction blocks with
  | nil => rfl
  | cons block rest ih =>
    cases block with
    | text units kind startsNewBlock charged => exact congrArg _ (ih h)
    | call call =>
      unfold findCall at h
      unfold updateCall
      split at h
      · cases h
      · next hkey => rw [if_neg hkey, ih h]

/-- A record that is changed where it stands changes the call of its key, and nothing else. -/
theorem Laid.write {change : PendingCall → PendingCall} (h : Laid records slots blocks index)
    (hnodup : (index.map Prod.fst).Nodup) (hrecords : (index.map Prod.snd).Nodup) (hmem : (key, record) ∈ index)
    (hrecord : records[record]? = some call) (hkept : (change call).key = call.key) :
    Laid (records.set record (change call)) slots (updateCall key change blocks) index := by
  induction h with
  | nil => cases hmem
  | text text kind startsNewBlock charged _ ih => exact .text text kind startsNewBlock charged (ih hnodup hrecords hmem)
  | call held other hheld hrest ih =>
    rw [List.map_cons, List.nodup_cons] at hnodup hrecords
    unfold updateCall
    have hbound := (List.getElem?_eq_some_iff.mp hrecord).1
    cases hmem with
    | head =>
      obtain rfl := Option.some.inj (hheld.symm.trans hrecord)
      rw [if_pos rfl, ← hkept]
      refine .call _ (change other) (by rw [List.getElem?_set_self hbound]) (hrest.congr fun entry hentry => ?_)
      refine List.getElem?_set_ne fun hsame => hrecords.1 ?_
      exact List.mem_map.mpr ⟨entry, hentry, hsame.symm⟩
    | tail _ hmem =>
      have hne : other.key ≠ key := fun hkey => hnodup.1 (List.mem_map.mpr ⟨_, hmem, hkey.symm⟩)
      have hother : record ≠ held := fun hsame => hrecords.1 (List.mem_map.mpr ⟨_, hmem, hsame⟩)
      rw [if_neg hne]
      exact .call held other (by rw [List.getElem?_set_ne hother, hheld]) (ih hnodup.2 hrecords.2 hmem)

end Laid

section Stands

variable {array : PendingArray} {pending : PendingStreamBlocks} {slots : List QueueSlot} {key : CallKey}
  {record : ℕ} {call : PendingCall}

/-- The array holds the queue: emptied slots before the head, the slots of the blocks behind it, no emptied slot when
nothing waits, and a record of its own for each call. -/
structure Stands (array : PendingArray) (pending : PendingStreamBlocks) (slots : List QueueSlot) : Prop where
  limit_eq : array.limit = pending.limit
  bytes_eq : array.bytes = pending.bytes
  queue_eq : array.queue = List.replicate array.head none ++ slots.map some
  spliced : slots = [] → array.head = 0
  laid : Laid array.records slots pending.queue array.calls.entries
  records : (array.calls.entries.map Prod.snd).Nodup

/-- The array says what the queue says. -/
theorem Stands.contents_eq (h : Stands array pending slots) : array.contents = pending.queue := by
  have hlive : array.queue.drop array.head = slots.map some := by
    rw [h.queue_eq, List.drop_left' List.length_replicate]
  rw [PendingArray.contents, hlive, List.filterMap_map, ← h.laid.filterMap_read]
  rfl

/-- A call that is found stands in the queue. -/
theorem Stands.find_some (h : Stands array pending slots) (hfind : array.find key = some (record, call)) :
    (key, record) ∈ array.calls.entries ∧ array.records[record]? = some call ∧
      findCall key pending.queue = some call := by
  obtain ⟨known, hknown, hread⟩ := Option.bind_eq_some_iff.mp hfind
  obtain ⟨found, hfound, hpair⟩ := Option.map_eq_some_iff.mp hread
  obtain ⟨rfl, rfl⟩ := Prod.mk.inj hpair
  have hmem := InsertionMap.get_eq_some.mp hknown
  obtain ⟨other, hother, -, hqueued⟩ := h.laid.find array.calls.nodup hmem
  obtain rfl := Option.some.inj (hother.symm.trans hfound)
  exact ⟨hmem, hfound, hqueued⟩

/-- One that is not found has no entry. -/
theorem Stands.find_none (h : Stands array pending slots) (hfind : array.find key = none) :
    key ∉ array.calls.entries.map Prod.fst := by
  intro hmem
  obtain ⟨⟨_, known⟩, hentry, rfl⟩ := List.mem_map.mp hmem
  obtain ⟨call, hrecord, -, -⟩ := h.laid.find array.calls.nodup hentry
  rw [PendingArray.find, InsertionMap.get_eq_some.mpr hentry, Option.bind_some, hrecord] at hfind
  cases hfind

/-- The array and the queue charge the same bytes, or both refuse them. -/
theorem Stands.charge_cases (h : Stands array pending slots) (size : ℕ) :
    array.charge size = (false, array) ∧ pending.charge size = none ∨
      array.charge size = (true, { array with bytes := array.bytes + size }) ∧
        pending.charge size = some { pending with bytes := pending.bytes + size } ∧
        Stands { array with bytes := array.bytes + size } { pending with bytes := pending.bytes + size } slots := by
  unfold PendingArray.charge PendingStreamBlocks.charge
  have hlimit := h.limit_eq
  have hbytes := h.bytes_eq
  by_cases hover : array.limit < array.bytes + size
  · rw [if_pos hover, if_pos (by omega)]
    exact .inl ⟨rfl, rfl⟩
  · rw [if_neg hover, if_neg (by omega)]
    exact .inr ⟨rfl, rfl, { h with bytes_eq := congrArg (· + size) hbytes }⟩

/-- A call is changed where it stands. -/
theorem Stands.write (h : Stands array pending slots) (change : PendingCall → PendingCall)
    (hmem : (key, record) ∈ array.calls.entries) (hrecord : array.records[record]? = some call)
    (hkept : (change call).key = call.key) :
    Stands (array.write record (change call)) { pending with queue := updateCall key change pending.queue } slots :=
  { h with laid := h.laid.write array.calls.nodup h.records hmem hrecord hkept }

/-- A block comes last. -/
theorem Stands.push {slot : QueueSlot} {block : PendingStreamBlock} (h : Stands array pending slots)
    (more : List PendingCall) (calls : InsertionMap CallKey ℕ) (added : List (CallKey × ℕ))
    (hcalls : calls.entries = array.calls.entries ++ added)
    (hadded : ∀ entry ∈ added, array.records.length ≤ entry.2) (hnodup : (added.map Prod.snd).Nodup)
    (hslot : Laid (array.records ++ more) [slot] [block] added) :
    Stands { array with records := array.records ++ more, calls, queue := array.queue ++ [some slot] }
      { pending with queue := pending.queue ++ [block] } (slots ++ [slot]) where
  limit_eq := h.limit_eq
  bytes_eq := h.bytes_eq
  queue_eq := by
    rw [h.queue_eq, List.map_append, List.append_assoc]
    rfl
  spliced := fun hnone => absurd hnone (by simp)
  laid := by
    have hkept : Laid (array.records ++ more) slots pending.queue array.calls.entries :=
      h.laid.congr fun entry hentry => List.getElem?_append_left (h.laid.valid entry hentry)
    rw [hcalls]
    exact hkept.append hslot
  records := by
    rw [hcalls, List.map_append, List.nodup_append]
    refine ⟨h.records, hnodup, ?_⟩
    rintro first hfirst second hsecond rfl
    obtain ⟨held, hheld, rfl⟩ := List.mem_map.mp hfirst
    obtain ⟨entry, hentry, hsame⟩ := List.mem_map.mp hsecond
    have hold := h.laid.valid held hheld
    have hnew := hadded entry hentry
    omega

/-- A call that is added is added to the queue. -/
theorem Stands.add (h : Stands array pending slots) (key : CallKey) (id name : Option Units) :
    ∃ slots, Stands (array.step (.add key id name)).1 (pending.step (.add key id name)).1 slots ∧
      (array.step (.add key id name)).2 = (pending.step (.add key id name)).2 := by
  unfold PendingArray.step PendingStreamBlocks.step PendingArray.add PendingStreamBlocks.add
  dsimp only
  cases hfind : array.find key with
  | some found =>
    obtain ⟨record, old⟩ := found
    obtain ⟨hmem, hrecord, hqueued⟩ := h.find_some hfind
    rw [hqueued]
    dsimp only
    generalize utf8Length _ = size
    obtain ⟨hrefused, hnone⟩ | ⟨htaken, hsome, hstands⟩ := h.charge_cases size
    · rw [hrefused, hnone]
      exact ⟨slots, h, rfl⟩
    · rw [htaken, hsome]
      exact ⟨slots, hstands.write (fun call =>
        { call with
          chargedBytes := call.chargedBytes + size
          id := call.id.or (PendingStreamBlocks.stated id)
          name := call.name.or (PendingStreamBlocks.stated name) }) hmem hrecord rfl, rfl⟩
  | none =>
    have habsent := h.find_none hfind
    rw [h.laid.absent habsent]
    dsimp only
    generalize utf8Length _ + 128 = size
    obtain ⟨hrefused, hnone⟩ | ⟨htaken, hsome, hstands⟩ := h.charge_cases size
    · rw [hrefused, hnone]
      exact ⟨slots, h, rfl⟩
    · rw [htaken, hsome]
      refine ⟨_, hstands.push _ _ [(key, array.records.length)] ?_ ?_ (List.nodup_singleton _) ?_, rfl⟩
      · rw [InsertionMap.set, dif_neg habsent]
      · simp
      · exact .call _ _ List.getElem?_concat_length .nil

/-- Arguments are appended to the queued call. -/
theorem Stands.append (h : Stands array pending slots) (key : CallKey) (fragment : Units) :
    ∃ slots, Stands (array.step (.append key fragment)).1 (pending.step (.append key fragment)).1 slots ∧
      (array.step (.append key fragment)).2 = (pending.step (.append key fragment)).2 := by
  unfold PendingArray.step PendingStreamBlocks.step PendingArray.append PendingStreamBlocks.append
  dsimp only
  cases hfind : array.find key with
  | some found =>
    obtain ⟨record, old⟩ := found
    obtain ⟨hmem, hrecord, hqueued⟩ := h.find_some hfind
    rw [hqueued]
    dsimp only
    obtain ⟨hrefused, hnone⟩ | ⟨htaken, hsome, hstands⟩ := h.charge_cases (utf8Length fragment)
    · rw [hrefused, hnone]
      exact ⟨slots, h, rfl⟩
    · rw [htaken, hsome]
      exact ⟨slots, hstands.write (fun call =>
        { call with
          chargedBytes := call.chargedBytes + utf8Length fragment
          args := call.args ++ fragment }) hmem hrecord rfl, rfl⟩
  | none =>
    rw [h.laid.absent (h.find_none hfind)]
    exact ⟨slots, h, rfl⟩

/-- A call that is done leaves the index. -/
theorem Stands.done (h : Stands array pending slots) (key : CallKey) :
    Stands (array.step (.done key)).1 (pending.step (.done key)).1 slots := by
  unfold PendingArray.step PendingStreamBlocks.step PendingArray.done PendingStreamBlocks.done
  dsimp only
  cases hfind : array.find key with
  | some found =>
    obtain ⟨hmem, hrecord, -⟩ := h.find_some hfind
    exact h.write (fun call => { call with completed := true }) hmem hrecord rfl
  | none =>
    rw [updateCall_of_none _ (h.laid.absent (h.find_none hfind))]
    exact h

/-- The last slot stands for the last block. -/
theorem Laid.unconcat {records : List PendingCall} {slot : QueueSlot} {blocks : List PendingStreamBlock}
    {index : List (CallKey × ℕ)} (h : Laid records (slots ++ [slot]) blocks index) :
    ∃ before block known added, blocks = before ++ [block] ∧ index = known ++ added ∧
      Laid records slots before known ∧ Laid records [slot] [block] added := by
  induction slots generalizing blocks index with
  | nil =>
    cases h with
    | text text kind startsNewBlock charged hrest =>
      cases hrest
      exact ⟨[], _, [], [], rfl, rfl, .nil, .text text kind startsNewBlock charged .nil⟩
    | call record call hrecord hrest =>
      cases hrest
      exact ⟨[], _, [], [_], rfl, rfl, .nil, .call record call hrecord .nil⟩
  | cons first rest ih =>
    cases h with
    | text text kind startsNewBlock charged hrest =>
      obtain ⟨before, block, known, added, rfl, rfl, hbefore, hblock⟩ := ih hrest
      exact ⟨_ :: before, block, known, added, rfl, rfl, .text text kind startsNewBlock charged hbefore, hblock⟩
    | call record call hrecord hrest =>
      obtain ⟨before, block, known, added, rfl, rfl, hbefore, hblock⟩ := ih hrest
      exact ⟨_ :: before, block, _ :: known, added, rfl, rfl, .call record call hrecord hbefore, hblock⟩

/-- Text joins the last block alone, and only where that is text of its kind. -/
theorem joinLast_concat (kind : FragmentKind) (fragment : Units) (size : ℕ) (before : List PendingStreamBlock)
    (block : PendingStreamBlock) : PendingStreamBlocks.joinLast kind fragment size (before ++ [block]) =
      match block with
      | .text text held startsNewBlock charged =>
        if held = kind then some (before ++ [.text (text ++ fragment) held startsNewBlock (charged + size)]) else none
      | .call _ => none := by
  induction before with
  | nil => cases block <;> rfl
  | cons first rest ih =>
    have hstep : PendingStreamBlocks.joinLast kind fragment size (first :: rest ++ [block]) =
        (PendingStreamBlocks.joinLast kind fragment size (rest ++ [block])).map (first :: ·) := by
      cases rest with
      | nil => cases first <;> cases block <;> rfl
      | cons second rest => cases first <;> rfl
    rw [hstep, ih]
    cases block with
    | text text held startsNewBlock charged =>
      dsimp only
      split <;> rfl
    | call call => rfl

/-- The text at the end of the array is the text at the end of the queue. -/
theorem Stands.lastText_cases (h : Stands array pending slots) (kind : FragmentKind) (fragment : Units) (size : ℕ) :
    array.lastText kind = none ∧ PendingStreamBlocks.joinLast kind fragment size pending.queue = none ∨
      ∃ text startsNewBlock charged merged slots, array.lastText kind = some (text, startsNewBlock, charged) ∧
        PendingStreamBlocks.joinLast kind fragment size pending.queue = some merged ∧
        Stands
          { array with
            queue := array.queue.dropLast ++ [some (.text (text ++ fragment) kind startsNewBlock (charged + size))] }
          { pending with queue := merged } slots := by
  have hlaid := h.laid
  have hqueue := h.queue_eq
  rcases List.eq_nil_or_concat slots with rfl | ⟨init, slot, rfl⟩
  · have hempty : array.queue = [] := by rw [hqueue, h.spliced rfl]; rfl
    cases hblocks : pending.queue with
    | nil => exact .inl ⟨by rw [PendingArray.lastText, hempty]; rfl, rfl⟩
    | cons block rest =>
      rw [hblocks] at hlaid
      cases hlaid
  · rw [List.concat_eq_append] at hlaid hqueue
    rw [List.map_append, ← List.append_assoc, List.map_singleton] at hqueue
    obtain ⟨before, block, known, added, hblocks, hindex, hbefore, hblock⟩ := hlaid.unconcat
    rw [PendingArray.lastText, hblocks, joinLast_concat, hqueue, List.getLast?_concat, Option.join_some,
      List.dropLast_concat]
    cases hblock with
    | call record call hrecord => exact .inl ⟨rfl, rfl⟩
    | text text held startsNewBlock charged hrest =>
      cases hrest
      dsimp only
      by_cases hheld : held = kind
      · subst hheld
        rw [if_pos rfl, if_pos rfl]
        refine .inr ⟨text, startsNewBlock, charged, _, init ++
          [.text (text ++ fragment) held startsNewBlock (charged + size)],
          rfl, rfl, { h with queue_eq := ?_, spliced := fun hnone => absurd hnone (by simp), laid := ?_ }⟩
        · rw [List.map_append, ← List.append_assoc, List.map_singleton]
        · rw [hindex]
          exact hbefore.append (.text _ _ _ _ .nil)
      · rw [if_neg hheld, if_neg hheld]
        exact .inl ⟨rfl, rfl⟩

/-- Text that is charged joins the last block or is pushed. -/
theorem Stands.pushText (h : Stands array pending slots) (fragment : Units) (kind : FragmentKind)
    (startsNewBlock : Bool) (size : ℕ) : ∃ slots, Stands (array.pushText fragment kind startsNewBlock size).1
        (pending.answer ((pending.charge size).map fun charged =>
          { charged with queue := charged.queue ++ [.text fragment kind startsNewBlock size] })).1 slots ∧
      (array.pushText fragment kind startsNewBlock size).2 =
        (pending.answer ((pending.charge size).map fun charged =>
          { charged with queue := charged.queue ++ [.text fragment kind startsNewBlock size] })).2 := by
  unfold PendingArray.pushText
  obtain ⟨hrefused, hnone⟩ | ⟨htaken, hsome, hstands⟩ := h.charge_cases size
  · rw [hrefused, hnone]
    exact ⟨slots, h, rfl⟩
  · rw [htaken, hsome]
    have hpushed := hstands.push [] array.calls [] (List.append_nil _).symm nofun
      .nil (.text fragment kind startsNewBlock size .nil)
    simp only [List.append_nil] at hpushed
    exact ⟨_, hpushed, rfl⟩

/-- Text is told to the queue. -/
theorem Stands.text (h : Stands array pending slots) (fragment : Units) (kind : FragmentKind) (startsNewBlock : Bool) :
    ∃ slots, Stands (array.step (.text fragment kind startsNewBlock)).1
        (pending.step (.text fragment kind startsNewBlock)).1 slots ∧
      (array.step (.text fragment kind startsNewBlock)).2 = (pending.step (.text fragment kind startsNewBlock)).2 := by
  unfold PendingArray.step PendingStreamBlocks.step PendingArray.text PendingStreamBlocks.text
  cases startsNewBlock with
  | true => exact h.pushText fragment kind true _
  | false =>
    dsimp only
    rw [if_neg Bool.false_ne_true, if_neg Bool.false_ne_true]
    obtain ⟨hapart, hseparate⟩ | ⟨text, opened, charged, merged, slots, hlast, hjoined, hmerged⟩ :=
      h.lastText_cases kind fragment (utf8Length fragment)
    · rw [hapart, hseparate]
      exact h.pushText fragment kind false _
    · rw [hlast, hjoined]
      dsimp only
      obtain ⟨hrefused, hnone⟩ | ⟨htaken, hsome, hstands⟩ := h.charge_cases (utf8Length fragment)
      · rw [hrefused, hnone]
        exact ⟨_, h, rfl⟩
      · rw [htaken, hsome]
        exact ⟨slots, { hmerged with bytes_eq := hstands.bytes_eq }, rfl⟩

/-- The array still holds the queue when the emptied slots are cut off, or are too few for that. -/
theorem Stands.splice (hlimit : array.limit = pending.limit) (hbytes : array.bytes = pending.bytes)
    (hqueue : array.queue = List.replicate array.head none ++ slots.map some) (hhead : 0 < array.head)
    (hlaid : Laid array.records slots pending.queue array.calls.entries)
    (hrecords : (array.calls.entries.map Prod.snd).Nodup) : Stands array.splice pending slots := by
  unfold PendingArray.splice
  split
  · exact { limit_eq := hlimit
            bytes_eq := hbytes
            queue_eq := by
              dsimp only
              rw [hqueue, List.drop_left' List.length_replicate]
              rfl
            spliced := fun _ => rfl
            laid := hlaid
            records := hrecords }
  · next hlong =>
    refine ⟨hlimit, hbytes, hqueue, fun hnone => ?_, hlaid, hrecords⟩
    rw [hqueue, hnone, List.length_append, List.length_replicate] at hlong
    simp at hlong
    omega

theorem PendingArray.splice_forget (array : PendingArray) (key : CallKey) :
    array.splice.forget key = (array.forget key).splice := by
  unfold PendingArray.splice PendingArray.forget
  dsimp only
  split <;> rfl

/-- The head is shifted off the queue. -/
theorem Stands.shift (h : Stands array pending slots) :
    ∃ slots, Stands (array.step .shift).1 (pending.step .shift).1 slots ∧
      (array.step .shift).2 = (pending.step .shift).2 := by
  have hqueue := h.queue_eq
  have hlaid := h.laid
  have hfirst : array.queue[array.head]?.join = slots.head? := by
    rw [hqueue, List.getElem?_append_right (by simp), List.length_replicate, Nat.sub_self, List.getElem?_map]
    cases slots <;> rfl
  unfold PendingArray.step PendingStreamBlocks.step PendingArray.shift PendingStreamBlocks.dropFirst
  dsimp only
  rw [hfirst]
  cases slots with
  | nil =>
    cases hblocks : pending.queue with
    | nil => exact ⟨[], h, rfl⟩
    | cons block blocks =>
      rw [hblocks] at hlaid
      cases hlaid
  | cons slot rest =>
    have hemptied : array.queue.set array.head none = List.replicate (array.head + 1) none ++ rest.map some := by
      rw [hqueue, List.set_append_right _ _ (by simp), List.length_replicate, Nat.sub_self, List.map_cons,
        List.set_cons_zero, List.replicate_succ', List.append_assoc]
      rfl
    cases hblocks : pending.queue with
    | nil =>
      rw [hblocks] at hlaid
      cases hlaid
    | cons block blocks =>
      rw [hblocks] at hlaid
      generalize hentries : array.calls.entries = entries at hlaid
      cases hlaid with
      | text text kind startsNewBlock charged hrest =>
        have hstands : Stands
            (PendingArray.splice { array with queue := array.queue.set array.head none, head := array.head + 1 })
            { pending with queue := blocks } rest := .splice
          h.limit_eq h.bytes_eq hemptied (Nat.succ_pos _) (hentries ▸ hrest) h.records
        refine ⟨rest, { hstands with bytes_eq := ?_ }, rfl⟩
        exact congrArg (· - charged) hstands.bytes_eq
      | @call rest blocks index record call hrecord hrest =>
        have hread : QueueSlot.read array.records (.call record) = some (.call call) := by
          rw [QueueSlot.read, hrecord, Option.map_some]
        rw [List.head?_cons, Option.bind_some, hread]
        have hnodup := array.calls.nodup
        have hrecords := h.records
        rw [hentries, List.map_cons, List.nodup_cons] at hnodup hrecords
        have hdeleted : (array.calls.delete call.key).entries = index := by
          change array.calls.entries.filter _ = index
          rw [hentries, List.filter_cons_of_neg (by simp)]
          refine List.filter_eq_self.mpr fun entry hentry => decide_eq_true fun hsame => hnodup.1 ?_
          exact List.mem_map.mpr ⟨entry, hentry, hsame⟩
        have hstands : Stands (PendingArray.splice (PendingArray.forget
              { array with queue := array.queue.set array.head none, head := array.head + 1 } call.key))
            { pending with queue := blocks } rest := .splice
          h.limit_eq h.bytes_eq hemptied (Nat.succ_pos _) (hdeleted.symm ▸ hrest) (hdeleted.symm ▸ hrecords.2)
        rw [← PendingArray.splice_forget] at hstands
        refine ⟨rest, { hstands with bytes_eq := ?_ }, rfl⟩
        exact congrArg (· - call.chargedBytes) hstands.bytes_eq

/-- All of it is drained. -/
theorem Stands.drain (h : Stands array pending slots) :
    Stands (array.step .drain).1 (pending.step .drain).1 [] ∧ (array.step .drain).2 = (pending.step .drain).2 :=
  ⟨⟨h.limit_eq, rfl, rfl, fun _ => rfl, .nil, .nil⟩, congrArg PendingAnswer.left h.contents_eq⟩

/-- Each operation on the array is the operation on the queue, and is answered alike. -/
theorem Stands.step (h : Stands array pending slots) (operation : PendingOperation) :
    ∃ slots, Stands (array.step operation).1 (pending.step operation).1 slots ∧
      (array.step operation).2 = (pending.step operation).2 := by
  cases operation with
  | add key id name => exact h.add key id name
  | append key fragment => exact h.append key fragment
  | text fragment kind startsNewBlock => exact h.text fragment kind startsNewBlock
  | done key => exact ⟨slots, h.done key, rfl⟩
  | shift => exact h.shift
  | drain => exact ⟨[], h.drain⟩

end Stands

end MultiAiRouter.Translate.Anthropic
