import MultiAiRouter.Translate.OpenAiChat.AnthropicStream
import Mathlib.Algebra.Order.BigOperators.Group.List
import Mathlib.Algebra.Order.Ring.Int

/-!
# Token counts across the dialects

Anthropic counts the uncached rest of a prompt, with the cache reads and writes beside it; the two OpenAI dialects
count the whole prompt. Crossing sums on the one way and subtracts on the other. A count that was never stated is
absent, not zero. Counts are whole binary64 numbers, so a sum is exact up to `2 ^ 53` and rounds above.
-/

namespace MultiAiRouter.Translate.Shared

open Translate.OpenAiChat

/-- The parts of a prompt an OpenAI answer may detail; a cache write is OpenRouter's extension. -/
structure PromptDetails where
  cachedTokens : Option Int
  cacheWriteTokens : Option Int := none
  deriving DecidableEq

/-- The parts of a completion an OpenAI answer may detail. -/
structure CompletionDetails where
  reasoningTokens : Option Int
  deriving DecidableEq

/-- Usage as openai-chat states it. -/
structure OpenAiChatUsage where
  promptTokens : Option Int
  completionTokens : Option Int
  totalTokens : Option Int
  promptTokensDetails : Option PromptDetails := none
  completionTokensDetails : Option CompletionDetails := none
  deriving DecidableEq

/-- The cached part an openai-responses answer may detail. -/
structure InputDetails where
  cachedTokens : Option Int
  deriving DecidableEq

/-- Usage as openai-responses states it. -/
structure OpenAiResponsesUsage where
  inputTokens : Option Int
  outputTokens : Option Int
  totalTokens : Option Int
  inputTokensDetails : Option InputDetails := none
  outputTokensDetails : Option CompletionDetails := none
  deriving DecidableEq

/-- The binary64 number nearest to a size, of two that are as near the one with an even significand. -/
def roundSize (size : ℕ) : ℕ :=
  let unit := 2 ^ (size.log2 - 52)
  let significand := size / unit
  let rest := size % unit
  if 2 * rest < unit ∨ 2 * rest = unit ∧ significand % 2 = 0 then significand * unit else (significand + 1) * unit

/-- The binary64 number an operation on whole numbers returns for its exact result. -/
def roundCount (count : Int) : Int := count.sign * roundSize count.natAbs

/-- One term of a sum. -/
def addTerm (total : Option Int) : Option Int → Option Int
  | none => total
  | some value => some (roundCount (total.getD 0 + value))

/-- Null only when every term is null: one known term still makes a partial total worth reporting. -/
def sum (values : List (Option Int)) : Option Int := values.foldl addTerm none

/-- Clamped at zero. -/
def difference : Option Int → Option Int → Option Int
  | none, _ => none
  | some minuend, none => some minuend
  | some minuend, some subtrahend => some (max 0 (roundCount (minuend - subtrahend)))

namespace OpenAiChatUsage

/-- The cached part of the prompt, where it is stated. -/
def cached (usage : OpenAiChatUsage) : Option Int := usage.promptTokensDetails.bind PromptDetails.cachedTokens

/-- The written part of the prompt, where it is stated. -/
def written (usage : OpenAiChatUsage) : Option Int := usage.promptTokensDetails.bind PromptDetails.cacheWriteTokens

/-- The reasoning part of the completion, where it is stated. -/
def reasoning (usage : OpenAiChatUsage) : Option Int :=
  usage.completionTokensDetails.bind CompletionDetails.reasoningTokens

end OpenAiChatUsage

namespace OpenAiResponsesUsage

/-- The cached part of the input, where it is stated. -/
def cached (usage : OpenAiResponsesUsage) : Option Int := usage.inputTokensDetails.bind InputDetails.cachedTokens

/-- The reasoning part of the output, where it is stated. -/
def reasoning (usage : OpenAiResponsesUsage) : Option Int :=
  usage.outputTokensDetails.bind CompletionDetails.reasoningTokens

end OpenAiResponsesUsage

/-- openai-responses usage as openai-chat usage: a rename. -/
def responsesUsageToOpenAiChat (usage : OpenAiResponsesUsage) : OpenAiChatUsage where
  promptTokens := usage.inputTokens
  completionTokens := usage.outputTokens
  totalTokens := usage.totalTokens
  promptTokensDetails := usage.cached.map fun cached => { cachedTokens := some cached }
  completionTokensDetails := usage.reasoning.map fun reasoning => { reasoningTokens := some reasoning }

/-- openai-chat usage as openai-responses usage: the same rename, read the other way. -/
def openAiChatUsageToResponses (usage : OpenAiChatUsage) : OpenAiResponsesUsage where
  inputTokens := usage.promptTokens
  outputTokens := usage.completionTokens
  totalTokens := usage.totalTokens.or (sum [usage.promptTokens, usage.completionTokens])
  inputTokensDetails := usage.cached.map fun cached => { cachedTokens := some cached }
  outputTokensDetails := usage.reasoning.map fun reasoning => { reasoningTokens := some reasoning }

/-- Anthropic usage as openai-chat usage: the prompt is the sum of its parts. -/
def usageToOpenAiChat (usage : AnthropicUsage) : OpenAiChatUsage :=
  let cached := usage.cacheReadInputTokens
  let prompt := sum [usage.inputTokens, usage.cacheCreationInputTokens, cached]
  { promptTokens := prompt
    completionTokens := usage.outputTokens
    totalTokens := sum [prompt, usage.outputTokens]
    promptTokensDetails := cached.map fun cached => { cachedTokens := some cached } }

/-- openai-chat usage as Anthropic usage: the read and the written part are taken out of the prompt. -/
def usageToAnthropic (usage : OpenAiChatUsage) : AnthropicUsage where
  inputTokens := difference usage.promptTokens (sum [usage.cached, usage.written])
  outputTokens := usage.completionTokens
  cacheCreationInputTokens := usage.written
  cacheReadInputTokens := usage.cached

/-- The `usage` block an Anthropic answer states: its output count always, the others where they are known. -/
def anthropicUsageCounts (usage : Option OpenAiChatUsage) : List (String × Int) :=
  let mapped := usage.map usageToAnthropic
  let stated (name : String) (count : Option Int) : List (String × Int) := count.toList.map fun count => (name, count)
  [("output_tokens", (mapped.bind AnthropicUsage.outputTokens).getD 0)] ++
    stated "input_tokens" (mapped.bind AnthropicUsage.inputTokens) ++
    stated "cache_read_input_tokens" (mapped.bind AnthropicUsage.cacheReadInputTokens) ++
    stated "cache_creation_input_tokens" (mapped.bind AnthropicUsage.cacheCreationInputTokens)

/-- The total of the known counts, where one is known. -/
def knownTotal (values : List (Option Int)) : Option Int :=
  if ∀ value ∈ values, value = none then none else some (values.map fun value => value.getD 0).sum

/-- A whole number up to `2 ^ 53` needs no rounding. -/
theorem roundCount_eq {count : Int} (h : count.natAbs ≤ 2 ^ 53) : roundCount count = count := by
  have hround : roundSize count.natAbs = count.natAbs := by
    rcases h.lt_or_eq with hless | hequal
    · have hunit : count.natAbs.log2 - 52 = 0 := by
        by_cases hzero : count.natAbs = 0
        · rw [hzero, Nat.log2_zero]
        · have hlog := (Nat.log2_lt hzero).mpr hless
          omega
      simp [roundSize, hunit, Nat.mod_one]
    · rw [hequal]
      decide +kernel
  rw [roundCount, hround, Int.sign_mul_natAbs]

/-- Rounding keeps the sign. -/
theorem roundCount_nonneg {count : Int} (h : 0 ≤ count) : 0 ≤ roundCount count :=
  Int.mul_nonneg (Int.sign_nonneg_iff.mpr h) (Int.natCast_nonneg _)

/-- A count that is absent or not negative. -/
def IsCount (count : Option Int) : Prop := ∀ value, count = some value → 0 ≤ value

theorem isCount_none : IsCount none := fun _ h => by cases h

/-- A count is at least zero where it stands for one. -/
theorem IsCount.getD {count : Option Int} (h : IsCount count) : 0 ≤ count.getD 0 := by
  cases count with
  | none => exact le_rfl
  | some value => exact h value rfl

/-- A running total of counts up to `2 ^ 53` adds its known terms. -/
theorem foldl_addTerm {values : List (Option Int)} {total : Option Int} (hcounts : ∀ value ∈ values, IsCount value)
    (htotal : IsCount total) (hbound : total.getD 0 + (values.map fun value => value.getD 0).sum ≤ 2 ^ 53) :
    values.foldl addTerm total = if ∀ value ∈ values, value = none then total
      else some (total.getD 0 + (values.map fun value => value.getD 0).sum) := by
  induction values generalizing total with
  | nil => simp
  | cons value rest ih =>
    have hrest : 0 ≤ (rest.map fun value => value.getD 0).sum := List.sum_nonneg fun count hmem => by
      obtain ⟨value, hvalue, rfl⟩ := List.mem_map.mp hmem
      exact (hcounts value (List.mem_cons_of_mem _ hvalue)).getD
    have htail : ∀ value ∈ rest, IsCount value := fun value hmem => hcounts value (List.mem_cons_of_mem _ hmem)
    rw [List.map_cons, List.sum_cons] at hbound
    rw [List.foldl_cons]
    cases value with
    | none =>
      rw [addTerm, ih htail htotal (by simpa using hbound)]
      simp
    | some value =>
      have hvalue : 0 ≤ value := hcounts _ List.mem_cons_self value rfl
      have hexact : roundCount (total.getD 0 + value) = total.getD 0 + value := by
        have hbefore := htotal.getD
        rw [Option.getD_some] at hbound
        exact roundCount_eq (by omega)
      have hadded : IsCount (some (total.getD 0 + value)) := fun _ h => by
        have hbefore := htotal.getD
        rw [← Option.some.inj h]
        omega
      rw [addTerm, hexact, ih htail hadded (by simpa [add_assoc] using hbound)]
      by_cases hnone : ∀ value ∈ rest, value = none
      · have hzero : (rest.map fun value : Option Int => value.getD 0).sum = 0 :=
          List.sum_eq_zero fun count hmem => by
            obtain ⟨value, hvalue, rfl⟩ := List.mem_map.mp hmem
            rw [hnone value hvalue]
            rfl
        simp [hzero]
      · simp [hnone, add_assoc]

/-- A sum up to `2 ^ 53` is the total of its known terms. -/
theorem sum_eq {values : List (Option Int)} (hcounts : ∀ value ∈ values, IsCount value)
    (hbound : (values.map fun value => value.getD 0).sum ≤ 2 ^ 53) : sum values = knownTotal values := by
  unfold sum knownTotal
  rw [foldl_addTerm hcounts isCount_none (by simpa using hbound)]
  split
  · rfl
  · simp

/-- A sum is absent exactly where all its terms are. -/
theorem sum_eq_none {values : List (Option Int)} : sum values = none ↔ ∀ value ∈ values, value = none := by
  have hrun : ∀ (values : List (Option Int)) (total : Option Int),
      values.foldl addTerm total = none ↔ total = none ∧ ∀ value ∈ values, value = none := by
    intro values
    induction values with
    | nil => simp
    | cons value rest ih =>
      intro total
      rw [List.foldl_cons, ih]
      cases value <;> simp [addTerm]
  exact (hrun values none).trans (by simp)

/-- A sum of counts is a count. -/
theorem isCount_sum {values : List (Option Int)} (h : ∀ value ∈ values, IsCount value) : IsCount (sum values) := by
  have hrun : ∀ total, IsCount total → IsCount (values.foldl addTerm total) := by
    induction values with
    | nil => exact fun _ htotal => htotal
    | cons value rest ih =>
      intro total htotal
      refine ih (fun value hmem => h value (List.mem_cons_of_mem _ hmem)) _ ?_
      cases value with
      | none => exact htotal
      | some value =>
        intro _ hadded
        rw [← Option.some.inj hadded]
        exact roundCount_nonneg (add_nonneg htotal.getD (h _ List.mem_cons_self value rfl))
  exact hrun none isCount_none

/-- A difference of counts is a count. -/
theorem isCount_difference {minuend subtrahend : Option Int} (h : IsCount minuend) :
    IsCount (difference minuend subtrahend) := by
  cases minuend with
  | none => exact isCount_none
  | some minuend =>
    cases subtrahend with
    | none => exact h
    | some subtrahend =>
      intro value hvalue
      rw [← Option.some.inj hvalue]
      exact le_max_left 0 (roundCount (minuend - subtrahend))

/-- Every count of an Anthropic usage is absent or not negative. -/
structure CountedAnthropic (usage : AnthropicUsage) : Prop where
  input : IsCount usage.inputTokens
  output : IsCount usage.outputTokens
  creation : IsCount usage.cacheCreationInputTokens
  read : IsCount usage.cacheReadInputTokens

/-- Every count of an openai-chat usage is absent or not negative. -/
structure CountedChat (usage : OpenAiChatUsage) : Prop where
  prompt : IsCount usage.promptTokens
  completion : IsCount usage.completionTokens
  total : IsCount usage.totalTokens
  cached : IsCount usage.cached
  written : IsCount usage.written
  reasoning : IsCount usage.reasoning

/-- Every count of an openai-responses usage is absent or not negative. -/
structure CountedResponses (usage : OpenAiResponsesUsage) : Prop where
  input : IsCount usage.inputTokens
  output : IsCount usage.outputTokens
  total : IsCount usage.totalTokens
  cached : IsCount usage.cached
  reasoning : IsCount usage.reasoning

@[simp] theorem usageToOpenAiChat_cached (usage : AnthropicUsage) :
    (usageToOpenAiChat usage).cached = usage.cacheReadInputTokens := by
  cases h : usage.cacheReadInputTokens <;> simp [usageToOpenAiChat, OpenAiChatUsage.cached, h]

@[simp] theorem usageToOpenAiChat_written (usage : AnthropicUsage) : (usageToOpenAiChat usage).written = none := by
  cases h : usage.cacheReadInputTokens <;> simp [usageToOpenAiChat, OpenAiChatUsage.written, h]

@[simp] theorem usageToOpenAiChat_reasoning (usage : AnthropicUsage) : (usageToOpenAiChat usage).reasoning = none := rfl

@[simp] theorem responsesUsageToOpenAiChat_cached (usage : OpenAiResponsesUsage) :
    (responsesUsageToOpenAiChat usage).cached = usage.cached := by
  cases h : usage.cached <;> simp [responsesUsageToOpenAiChat, OpenAiChatUsage.cached, h]

@[simp] theorem responsesUsageToOpenAiChat_written (usage : OpenAiResponsesUsage) :
    (responsesUsageToOpenAiChat usage).written = none := by
  cases h : usage.cached <;> simp [responsesUsageToOpenAiChat, OpenAiChatUsage.written, h]

@[simp] theorem responsesUsageToOpenAiChat_reasoning (usage : OpenAiResponsesUsage) :
    (responsesUsageToOpenAiChat usage).reasoning = usage.reasoning := by
  cases h : usage.reasoning <;> simp [responsesUsageToOpenAiChat, OpenAiChatUsage.reasoning, h]

@[simp] theorem openAiChatUsageToResponses_cached (usage : OpenAiChatUsage) :
    (openAiChatUsageToResponses usage).cached = usage.cached := by
  cases h : usage.cached <;> simp [openAiChatUsageToResponses, OpenAiResponsesUsage.cached, h]

@[simp] theorem openAiChatUsageToResponses_reasoning (usage : OpenAiChatUsage) :
    (openAiChatUsageToResponses usage).reasoning = usage.reasoning := by
  cases h : usage.reasoning <;> simp [openAiChatUsageToResponses, OpenAiResponsesUsage.reasoning, h]

/-- Crossing to openai-chat yields counts. -/
theorem CountedAnthropic.toOpenAiChat {usage : AnthropicUsage} (h : CountedAnthropic usage) :
    CountedChat (usageToOpenAiChat usage) := by
  have hprompt : IsCount (usageToOpenAiChat usage).promptTokens :=
    isCount_sum (by simp [h.input, h.creation, h.read])
  exact
    { prompt := hprompt
      completion := h.output
      total := isCount_sum (by
        simp only [List.mem_cons, List.not_mem_nil, or_false, forall_eq_or_imp, forall_eq]
        exact ⟨hprompt, h.output⟩)
      cached := by rw [usageToOpenAiChat_cached]; exact h.read
      written := by rw [usageToOpenAiChat_written]; exact isCount_none
      reasoning := by rw [usageToOpenAiChat_reasoning]; exact isCount_none }

/-- Crossing to Anthropic yields counts. -/
theorem CountedChat.toAnthropic {usage : OpenAiChatUsage} (h : CountedChat usage) :
    CountedAnthropic (usageToAnthropic usage) :=
  ⟨isCount_difference h.prompt, h.completion, h.written, h.cached⟩

/-- Renaming to openai-responses yields counts. -/
theorem CountedChat.toResponses {usage : OpenAiChatUsage} (h : CountedChat usage) :
    CountedResponses (openAiChatUsageToResponses usage) where
  input := h.prompt
  output := h.completion
  total := by
    have hsum : IsCount (sum [usage.promptTokens, usage.completionTokens]) :=
      isCount_sum (by simp [h.prompt, h.completion])
    have htotal := h.total
    simp only [openAiChatUsageToResponses]
    cases hstated : usage.totalTokens with
    | none => simpa using hsum
    | some total => simpa [hstated] using htotal
  cached := by rw [openAiChatUsageToResponses_cached]; exact h.cached
  reasoning := by rw [openAiChatUsageToResponses_reasoning]; exact h.reasoning

/-- Renaming to openai-chat yields counts. -/
theorem CountedResponses.toOpenAiChat {usage : OpenAiResponsesUsage} (h : CountedResponses usage) :
    CountedChat (responsesUsageToOpenAiChat usage) where
  prompt := h.input
  completion := h.output
  total := h.total
  cached := by rw [responsesUsageToOpenAiChat_cached]; exact h.cached
  written := by rw [responsesUsageToOpenAiChat_written]; exact isCount_none
  reasoning := by rw [responsesUsageToOpenAiChat_reasoning]; exact h.reasoning

/-- A difference is absent where what is subtracted from is. -/
theorem difference_eq_none {minuend subtrahend : Option Int} :
    difference minuend subtrahend = none ↔ minuend = none := by
  cases minuend <;> cases subtrahend <;> simp [difference]

/-- The tokens an Anthropic usage reports for its prompt. -/
def promptTotal (usage : AnthropicUsage) : Int :=
  usage.inputTokens.getD 0 + usage.cacheCreationInputTokens.getD 0 + usage.cacheReadInputTokens.getD 0

/-- A prompt of at most `2 ^ 53` tokens is the total of its known parts. -/
theorem prompt_total {usage : AnthropicUsage} (h : CountedAnthropic usage) (hbound : promptTotal usage ≤ 2 ^ 53) :
    (usageToOpenAiChat usage).promptTokens =
      knownTotal [usage.inputTokens, usage.cacheCreationInputTokens, usage.cacheReadInputTokens] :=
  sum_eq (by simp [h.input, h.creation, h.read]) (by simpa [promptTotal, add_assoc] using hbound)

/-- The prompt of an Anthropic usage splits into its uncached rest and its cache reads. -/
theorem prompt_splits {usage : AnthropicUsage} (h : CountedAnthropic usage) (hbound : promptTotal usage ≤ 2 ^ 53) :
    knownTotal [(usageToAnthropic (usageToOpenAiChat usage)).inputTokens,
      (usageToAnthropic (usageToOpenAiChat usage)).cacheReadInputTokens] = (usageToOpenAiChat usage).promptTokens := by
  have hinput := h.input.getD
  have hcreation := h.creation.getD
  have hread := h.read.getD
  unfold promptTotal at hbound
  have hparts : sum [usage.cacheReadInputTokens, none] = knownTotal [usage.cacheReadInputTokens, none] :=
    sum_eq (by simp [h.read, isCount_none]) (by simp; omega)
  have hprompt := prompt_total h hbound
  simp only [usageToAnthropic, usageToOpenAiChat_cached, usageToOpenAiChat_written, hparts, hprompt]
  -- The subtraction never clamps: the prompt holds the cache reads it is taken from.
  cases hi : usage.inputTokens <;> cases hc : usage.cacheCreationInputTokens <;>
    cases hr : usage.cacheReadInputTokens <;> simp only [hi, hc, hr, Option.getD_some, Option.getD_none] at * <;>
    simp [knownTotal, difference]
  all_goals
    simp (disch := omega) only [roundCount_eq]
    omega

/-- A prompt that holds its cached and its written part is restored. -/
theorem prompt_restored {usage : OpenAiChatUsage} {prompt : Int} (h : CountedChat usage)
    (hprompt : usage.promptTokens = some prompt) (hbound : prompt ≤ 2 ^ 53)
    (hparts : usage.cached.getD 0 + usage.written.getD 0 ≤ prompt) :
    (usageToOpenAiChat (usageToAnthropic usage)).promptTokens = usage.promptTokens := by
  have hcached := h.cached.getD
  have hwritten := h.written.getD
  have hinside : sum [usage.cached, usage.written] = knownTotal [usage.cached, usage.written] :=
    sum_eq (by simp [h.cached, h.written]) (by simp; omega)
  have hrest : (usageToAnthropic usage).inputTokens =
      some (prompt - (usage.cached.getD 0 + usage.written.getD 0)) := by
    simp only [usageToAnthropic, hinside, hprompt]
    cases hc : usage.cached <;> cases hw : usage.written <;>
      simp only [hc, hw, Option.getD_some, Option.getD_none] at * <;> simp [knownTotal, difference]
    all_goals
      rw [roundCount_eq (by omega)]
      omega
  rw [prompt_total h.toAnthropic (by rw [promptTotal, hrest]; simp [usageToAnthropic]; omega), hrest]
  cases hc : usage.cached <;> cases hw : usage.written <;> simp [usageToAnthropic, knownTotal, hc, hw, hprompt]
  omega

/-- The counts an Anthropic answer states, by name. -/
theorem anthropicUsageCounts_lookup (usage : Option OpenAiChatUsage) :
    (anthropicUsageCounts usage).lookup "output_tokens" =
        some ((usage.bind OpenAiChatUsage.completionTokens).getD 0) ∧
      (anthropicUsageCounts usage).lookup "input_tokens" =
        usage.bind (fun usage => (usageToAnthropic usage).inputTokens) ∧
      (anthropicUsageCounts usage).lookup "cache_read_input_tokens" = usage.bind OpenAiChatUsage.cached ∧
      (anthropicUsageCounts usage).lookup "cache_creation_input_tokens" = usage.bind OpenAiChatUsage.written := by
  have hinput : (usage.map usageToAnthropic).bind AnthropicUsage.inputTokens =
      usage.bind fun usage => (usageToAnthropic usage).inputTokens := by cases usage <;> rfl
  have hread : (usage.map usageToAnthropic).bind AnthropicUsage.cacheReadInputTokens =
      usage.bind OpenAiChatUsage.cached := by cases usage <;> rfl
  have hcreation : (usage.map usageToAnthropic).bind AnthropicUsage.cacheCreationInputTokens =
      usage.bind OpenAiChatUsage.written := by cases usage <;> rfl
  have houtput : (usage.map usageToAnthropic).bind AnthropicUsage.outputTokens =
      usage.bind OpenAiChatUsage.completionTokens := by cases usage <;> rfl
  unfold anthropicUsageCounts
  dsimp only
  rw [hinput, hread, hcreation, houtput]
  refine ⟨by simp, ?_, ?_, ?_⟩ <;>
    cases usage.bind (fun usage => (usageToAnthropic usage).inputTokens) <;>
    cases usage.bind OpenAiChatUsage.cached <;>
    cases usage.bind OpenAiChatUsage.written <;> simp [List.lookup_cons]

/-- Toward openai-chat a prompt of at most `2 ^ 53` tokens totals the known input, cache writes and cache reads;
coming back, input and cache reads total that prompt. From openai-chat, a known prompt of at most `2 ^ 53` tokens
that holds its cached and its written part comes back with the same completion and cached counts. Counts go to
counts, and one is stated only where a term of it is known, an Anthropic output apart. -/
theorem usage_totals_survive : (∀ usage : AnthropicUsage, CountedAnthropic usage → promptTotal usage ≤ 2 ^ 53 →
      (usageToOpenAiChat usage).promptTokens =
        knownTotal [usage.inputTokens, usage.cacheCreationInputTokens, usage.cacheReadInputTokens] ∧
      knownTotal [(usageToAnthropic (usageToOpenAiChat usage)).inputTokens,
        (usageToAnthropic (usageToOpenAiChat usage)).cacheReadInputTokens] = (usageToOpenAiChat usage).promptTokens ∧
      (usageToAnthropic (usageToOpenAiChat usage)).outputTokens = usage.outputTokens) ∧
    (∀ (usage : OpenAiChatUsage) (prompt : Int), CountedChat usage → usage.promptTokens = some prompt →
      prompt ≤ 2 ^ 53 → usage.cached.getD 0 + usage.written.getD 0 ≤ prompt →
      (usageToOpenAiChat (usageToAnthropic usage)).promptTokens = usage.promptTokens ∧
      (usageToOpenAiChat (usageToAnthropic usage)).completionTokens = usage.completionTokens ∧
      (usageToOpenAiChat (usageToAnthropic usage)).cached = usage.cached) ∧
    ((∀ usage, CountedAnthropic usage → CountedChat (usageToOpenAiChat usage)) ∧
      (∀ usage, CountedChat usage → CountedAnthropic (usageToAnthropic usage) ∧
        CountedResponses (openAiChatUsageToResponses usage)) ∧
      ∀ usage, CountedResponses usage → CountedChat (responsesUsageToOpenAiChat usage)) ∧
    (∀ usage : AnthropicUsage, ((usageToOpenAiChat usage).promptTokens = none ↔
        usage.inputTokens = none ∧ usage.cacheCreationInputTokens = none ∧ usage.cacheReadInputTokens = none) ∧
      (usageToOpenAiChat usage).completionTokens = usage.outputTokens ∧
      ((usageToOpenAiChat usage).totalTokens = none ↔
        (usageToOpenAiChat usage).promptTokens = none ∧ usage.outputTokens = none) ∧
      (usageToOpenAiChat usage).cached = usage.cacheReadInputTokens ∧
      (usageToOpenAiChat usage).written = none ∧ (usageToOpenAiChat usage).reasoning = none) ∧
    (∀ usage : OpenAiChatUsage, ((usageToAnthropic usage).inputTokens = none ↔ usage.promptTokens = none) ∧
      (usageToAnthropic usage).outputTokens = usage.completionTokens ∧
      (usageToAnthropic usage).cacheCreationInputTokens = usage.written ∧
      (usageToAnthropic usage).cacheReadInputTokens = usage.cached ∧
      (openAiChatUsageToResponses usage).inputTokens = usage.promptTokens ∧
      (openAiChatUsageToResponses usage).outputTokens = usage.completionTokens ∧
      ((openAiChatUsageToResponses usage).totalTokens = none ↔
        usage.totalTokens = none ∧ usage.promptTokens = none ∧ usage.completionTokens = none) ∧
      (openAiChatUsageToResponses usage).cached = usage.cached ∧
      (openAiChatUsageToResponses usage).reasoning = usage.reasoning) ∧
    (∀ usage : OpenAiResponsesUsage, (responsesUsageToOpenAiChat usage).promptTokens = usage.inputTokens ∧
      (responsesUsageToOpenAiChat usage).completionTokens = usage.outputTokens ∧
      (responsesUsageToOpenAiChat usage).totalTokens = usage.totalTokens ∧
      (responsesUsageToOpenAiChat usage).cached = usage.cached ∧
      (responsesUsageToOpenAiChat usage).written = none ∧
      (responsesUsageToOpenAiChat usage).reasoning = usage.reasoning) ∧
    ∀ usage : Option OpenAiChatUsage,
      (anthropicUsageCounts usage).lookup "output_tokens" =
        some ((usage.bind OpenAiChatUsage.completionTokens).getD 0) ∧
      (anthropicUsageCounts usage).lookup "input_tokens" =
        usage.bind (fun usage => (usageToAnthropic usage).inputTokens) ∧
      (anthropicUsageCounts usage).lookup "cache_read_input_tokens" = usage.bind OpenAiChatUsage.cached ∧
      (anthropicUsageCounts usage).lookup "cache_creation_input_tokens" = usage.bind OpenAiChatUsage.written := by
  refine ⟨fun usage h hbound => ⟨prompt_total h hbound, prompt_splits h hbound, rfl⟩, fun usage prompt h hprompt hbound
      hparts => ⟨prompt_restored h hprompt hbound hparts, rfl, by rw [usageToOpenAiChat_cached]; rfl⟩,
    ⟨fun _ h => h.toOpenAiChat, fun _ h => ⟨h.toAnthropic, h.toResponses⟩, fun _ h => h.toOpenAiChat⟩,
    fun usage => ⟨?_, rfl, ?_, usageToOpenAiChat_cached usage, usageToOpenAiChat_written usage, rfl⟩,
    fun usage => ⟨difference_eq_none, rfl, rfl, rfl, rfl, rfl, ?_, openAiChatUsageToResponses_cached usage,
      openAiChatUsageToResponses_reasoning usage⟩,
    fun usage => ⟨rfl, rfl, rfl, responsesUsageToOpenAiChat_cached usage, responsesUsageToOpenAiChat_written usage,
      responsesUsageToOpenAiChat_reasoning usage⟩,
    anthropicUsageCounts_lookup⟩
  · simp [usageToOpenAiChat, sum_eq_none]
  · simp [usageToOpenAiChat, sum_eq_none]
  · simp [openAiChatUsageToResponses, sum_eq_none]

/-- Thirteen prompt tokens, four of them read from the cache and two written to it, in both dialects. -/
theorem usage_totals_survive_cached :
    let anthropic : AnthropicUsage := ⟨some 7, some 3, some 2, some 4⟩
    let chat : OpenAiChatUsage := ⟨some 13, some 3, none, some ⟨some 4, some 2⟩, none⟩
    (usageToOpenAiChat anthropic).promptTokens = some 13 ∧
      (usageToOpenAiChat (usageToAnthropic chat)).promptTokens = some 13 := by
  intro anthropic chat
  have hcount (value : Int) (h : 0 ≤ value) : IsCount (some value) := fun _ hsome => by rwa [← Option.some.inj hsome]
  exact ⟨(usage_totals_survive.1 anthropic ⟨hcount 7 (by decide), hcount 3 (by decide), hcount 2 (by decide),
      hcount 4 (by decide)⟩ (by decide)).1,
    (usage_totals_survive.2.1 chat 13 ⟨hcount 13 (by decide), hcount 3 (by decide), isCount_none,
      hcount 4 (by decide), hcount 2 (by decide), isCount_none⟩ rfl (by decide) (by decide)).1⟩

/-- The output count an Anthropic answer states is a zero where the upstream stated none, and a prompt above
`2 ^ 53` tokens is rounded. -/
theorem anthropicUsageCounts_unknown_output : (¬ ∀ usage : OpenAiChatUsage, usage.completionTokens = none →
      (anthropicUsageCounts (some usage)).lookup "output_tokens" = none) ∧
    ¬ ∀ usage : AnthropicUsage, CountedAnthropic usage → (usageToOpenAiChat usage).promptTokens =
      knownTotal [usage.inputTokens, usage.cacheCreationInputTokens, usage.cacheReadInputTokens] := by
  have hcount (value : Int) (h : 0 ≤ value) : IsCount (some value) := fun _ hsome => by rwa [← Option.some.inj hsome]
  constructor
  · intro h
    exact absurd (h { promptTokens := some 5, completionTokens := none, totalTokens := none } rfl) (by decide)
  · intro h
    exact absurd (h ⟨some 9007199254740991, none, some 2, none⟩
      ⟨hcount _ (by decide), isCount_none, hcount _ (by decide),
      isCount_none⟩) (by decide +kernel)

end MultiAiRouter.Translate.Shared
