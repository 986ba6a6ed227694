import MultiAiRouter.ClaudeSdk.Render.Envelope
import Mathlib.Data.Char

/-!
# Subagents beside the answer

The events of a subagent go through the index map of the answer's blocks under a key that begins with the length of
its id. A subagent's block is never kept, so an event under such a key finds nothing. The empty id alone has the key
of the client's own turn.
-/

namespace MultiAiRouter.ClaudeSdk.Render

open Common

/-- A number other than zero does not begin with the digit zero. -/
theorem toDigits_head {value : Nat} (h : value ≠ 0) : (Nat.toDigits 10 value).head? ≠ some '0' := by
  induction value using Nat.strong_induction_on with
  | _ value ih =>
    rw [Nat.toDigits_eq_if (by decide)]
    split
    · simpa using h
    · next hlarge =>
      have hquotient : value / 10 ≠ 0 := by omega
      have hnonempty : Nat.toDigits 10 (value / 10) ≠ [] := Nat.toDigits_ne_nil
      rw [List.head?_append_of_ne_nil _ hnonempty]
      exact ih (value / 10) (by omega) hquotient

/-- Among the digits, the code of zero is zero's alone. -/
theorem digit_eq_zero {digit : Char} (hdigit : digit.isDigit = true) (hcode : digit.toNat.toUInt16 = 48) :
    digit = '0' := by
  simp only [Char.isDigit, Bool.and_eq_true, decide_eq_true_eq] at hdigit
  have hhigh : digit.toNat ≤ 57 := UInt32.le_iff_toNat_le.mp hdigit.2
  have hvalue : digit.toNat % 65536 = 48 := congrArg UInt16.toNat hcode
  rw [Nat.mod_eq_of_lt (by omega)] at hvalue
  exact Char.toNat_inj.mp hvalue

theorem decimal_eq (value : Nat) : decimal value = (Nat.toDigits 10 value).map fun char => char.toNat.toUInt16 := by
  rw [decimal, asciiUnits, ← Nat.toList_repr]
  rfl

/-- The text of a number other than zero does not begin with the code of zero. -/
theorem decimal_head {value : Nat} (h : value ≠ 0) : (decimal value).head? ≠ some 48 := by
  rw [decimal_eq, List.head?_map]
  cases hhead : (Nat.toDigits 10 value).head? with
  | none => simp
  | some digit =>
    have hdigit : digit.isDigit := Nat.isDigit_of_mem_toDigits (by decide) (by decide) (List.mem_of_head? hhead)
    intro hcode
    exact toDigits_head h (digit_eq_zero hdigit (by simpa using hcode) ▸ hhead)

/-- The key of a named subagent is no key of the client's own turn. -/
theorem keyOf_ne {id : Units} (hid : id ≠ []) (sdkIndex other : Nat) :
    keyOf (some id) sdkIndex ≠ keyOf none other := by
  intro hsame
  have hlength : id.length ≠ 0 := by simpa using hid
  have hnonempty : decimal id.length ≠ [] := by
    rw [decimal_eq]
    simp
  refine decimal_head hlength ?_
  have hhead := congrArg List.head? hsame
  simp only [keyOf, Option.getD_some, Option.getD_none, List.append_assoc] at hhead
  rw [List.head?_append_of_ne_nil _ hnonempty] at hhead
  rw [hhead]
  rfl

/-- The map holds blocks of the client's own turn. -/
def OwnBlocks (envelope : Envelope) : Prop :=
  ∀ entry ∈ envelope.blocks.mapping, ∃ sdkIndex, entry.1 = keyOf none sdkIndex

/-- The event is not one of the empty id that addresses an index at which a block of the answer is open. -/
def KeepsApart (envelope : Envelope) (input : WireEvent × Turn) : Prop :=
  input.2 = some [] →
    input.1.type = .contentBlockStart ∨ input.1.type = .contentBlockDelta ∨ input.1.type = .contentBlockStop →
    ∀ sdkIndex, input.1.index = some sdkIndex → envelope.blocks.mapping.lookup (keyOf none sdkIndex) = none

section Step

variable {envelope : Envelope} {newId : Units}

/-- A subagent's event finds no block. -/
theorem lookup_subagent (hown : OwnBlocks envelope) {event : WireEvent} {id : Units}
    (hapart : KeepsApart envelope (event, some id))
    (htype : event.type = .contentBlockStart ∨ event.type = .contentBlockDelta ∨ event.type = .contentBlockStop)
    {sdkIndex : Nat} (hindex : event.index = some sdkIndex) :
    envelope.blocks.mapping.lookup (keyOf (some id) sdkIndex) = none := by
  by_cases hid : id = []
  · subst hid
    exact hapart rfl htype sdkIndex hindex
  · rw [List.lookup_eq_none_iff]
    intro entry hentry
    obtain ⟨other, hkey⟩ := hown entry hentry
    simpa [hkey] using keyOf_ne hid sdkIndex other

/-- A subagent's event changes nothing and emits nothing. -/
theorem push_subagent (hown : OwnBlocks envelope) {event : WireEvent} {id : Units}
    (hapart : KeepsApart envelope (event, some id)) : envelope.push newId event (some id) = (envelope, []) := by
  have hlookup := lookup_subagent hown hapart
  rw [Envelope.push]
  split
  · rfl
  · have hraw : envelope.pushRaw newId event (some id) = (envelope, []) := by
      unfold Envelope.pushRaw
      split <;> try rfl
      · next htype =>
        split
        · rfl
        · next sdkIndex hindex =>
          simp [Envelope.pushStart, BlockIndexMap.start, BlockIndexMap.forget, hlookup (.inl htype) hindex]
      · next htype =>
        split
        · rfl
        · next sdkIndex hindex => simp [BlockIndexMap.block, hlookup (.inr (.inl htype)) hindex]
      · next htype =>
        split
        · rfl
        · next sdkIndex hindex => simp [BlockIndexMap.stop, hlookup (.inr (.inr htype)) hindex]
    rw [hraw]
    rfl

/-- Only a kept start puts a block into the map, and only the client's own turn is kept. -/
theorem OwnBlocks.push (hown : OwnBlocks envelope) (event : WireEvent) (turn : Turn)
    (hapart : KeepsApart envelope (event, turn)) : OwnBlocks (envelope.push newId event turn).1 := by
  cases turn with
  | some id =>
    rw [push_subagent hown hapart]
    exact hown
  | none =>
    have hforget (key : Units) : ∀ entry ∈ (envelope.blocks.forget key).mapping, ∃ sdkIndex,
        entry.1 = keyOf none sdkIndex := by
      intro entry hentry
      rw [BlockIndexMap.forget] at hentry
      split at hentry
      · exact hown entry hentry
      · exact hown entry (List.mem_of_mem_filter hentry)
    unfold OwnBlocks
    rcases Envelope.push_blocks newId envelope event none with hsame | ⟨sdkIndex, hstart⟩ | ⟨sdkIndex, hstop⟩
    · rw [hsame]
      exact hown
    · rw [hstart]
      intro entry hentry
      simp only [BlockIndexMap.start, Option.isNone_none, if_true] at hentry
      rcases List.mem_append.mp hentry with hentry | hentry
      · exact hforget _ entry hentry
      · exact ⟨sdkIndex, by rw [List.mem_singleton.mp hentry]⟩
    · rw [hstop]
      intro entry hentry
      rw [BlockIndexMap.stop] at hentry
      split at hentry
      · exact hown entry hentry
      · exact hforget _ entry hentry

end Step

/-- Push an event of a turn. -/
def pushInput (newId : Units) (envelope : Envelope) (input : WireEvent × Turn) : Envelope × List ClientFrame :=
  envelope.push newId input.1 input.2

/-- The frames of the events and of the loop's end. -/
def messageFrames (newId model : Units) (inputs : List (WireEvent × Turn)) (completion : Completion) :
    List ClientFrame :=
  (emitFrom (pushInput newId) { model } inputs).2 ++
    ((emitFrom (pushInput newId) { model } inputs).1.finish newId completion).2

/-- The frames are those of the client's own events alone, and so is all that the envelope keeps, in every
run in which no event of the empty id addresses an open block of the answer. -/
theorem subagents_do_not_interfere (newId model : Units) (inputs : List (WireEvent × Turn))
    (hapart : EveryStep (fun envelope input => (pushInput newId envelope input).1) KeepsApart { model } inputs) :
    (emitFrom (pushInput newId) { model } inputs).1 =
        (emitFrom (pushInput newId) { model } (inputs.filter fun input => input.2.isNone)).1 ∧
      ∀ completion, messageFrames newId model inputs completion =
        messageFrames newId model (inputs.filter fun input => input.2.isNone) completion := by
  -- along the run the map holds blocks of the client's own turn
  have hboth : EveryStep (fun envelope input => (pushInput newId envelope input).1)
      (fun envelope input => OwnBlocks envelope ∧ KeepsApart envelope input) { model } inputs :=
    (everyStep_congr OwnBlocks (fun _ _ hown => (and_iff_right hown).symm)
      (fun _ input hown hstep => hown.push input.1 input.2 hstep) inputs { model } (by simp [OwnBlocks])).mp hapart
  have hrun : emitFrom (pushInput newId) { model } inputs =
      emitFrom (pushInput newId) { model } (inputs.filter fun input => input.2.isNone) := by
    refine emitFrom_filter (fun input => input.2.isNone) ?_ inputs _ hboth
    rintro envelope ⟨event, turn⟩ ⟨hown, hstep⟩ hsubagent
    cases turn with
    | none => simp at hsubagent
    | some id => exact push_subagent hown hstep
  refine ⟨by rw [← hrun], fun completion => ?_⟩
  rw [messageFrames, messageFrames, ← hrun]

/-- A block start at an index, in a turn. -/
def startOf (turn : Turn) (sdkIndex : Nat) : WireEvent × Turn :=
  ({ type := .contentBlockStart, index := some sdkIndex }, turn)

/-- A subagent's block beside the answer's. -/
theorem subagents_do_not_interfere_named :
    messageFrames [] [] [startOf none 0, startOf (some (asciiUnits "toolu_1")) 0]
        { stopReason := none, usage := none } =
      messageFrames [] [] [startOf none 0] { stopReason := none, usage := none } := by
  refine (subagents_do_not_interfere [] [] [startOf none 0, startOf (some (asciiUnits "toolu_1")) 0] ?_).2 _
  exact ⟨fun hturn => by simp [startOf] at hturn, fun hturn => by simp [startOf, asciiUnits] at hturn, trivial⟩

/-- A subagent of the empty id starts a block at an index of the answer: the answer's block is forgotten, and
its stop is missing. -/
theorem empty_id_drops_stop : ((messageFrames [] [] [startOf none 0, startOf (some []) 0]
        { stopReason := some (asciiUnits "end_turn"), usage := none }).map ClientFrame.type =
      [.messageStart, .contentBlockStart, .messageDelta, .messageStop]) ∧
      (messageFrames [] [] [startOf none 0] { stopReason := some (asciiUnits "end_turn"), usage := none }).map
          ClientFrame.type =
        [.messageStart, .contentBlockStart, .contentBlockStop, .messageDelta, .messageStop] ∧
      ¬ ∀ (inputs : List (WireEvent × Turn)) (completion : Completion), messageFrames [] [] inputs completion =
        messageFrames [] [] (inputs.filter fun input => input.2.isNone) completion := by
  have hmixed : (messageFrames [] [] [startOf none 0, startOf (some []) 0]
        { stopReason := some (asciiUnits "end_turn"), usage := none }).map ClientFrame.type =
      [.messageStart, .contentBlockStart, .messageDelta, .messageStop] := by decide +kernel
  have hanswer : (messageFrames [] [] [startOf none 0]
        { stopReason := some (asciiUnits "end_turn"), usage := none }).map ClientFrame.type =
      [.messageStart, .contentBlockStart, .contentBlockStop, .messageDelta, .messageStop] := by decide +kernel
  refine ⟨hmixed, hanswer, fun hall => ?_⟩
  have hsame := congrArg (List.map ClientFrame.type) (hall [startOf none 0, startOf (some []) 0]
    { stopReason := some (asciiUnits "end_turn"), usage := none })
  have hfilter : ([startOf none 0, startOf (some []) 0].filter fun input => input.2.isNone) = [startOf none 0] := rfl
  rw [hfilter, hmixed, hanswer] at hsame
  simp at hsame

end MultiAiRouter.ClaudeSdk.Render
