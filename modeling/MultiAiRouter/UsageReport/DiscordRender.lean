import Mathlib.Algebra.Order.BigOperators.Group.List
import Mathlib.Algebra.Order.Group.Nat
import Mathlib.Algebra.Ring.Nat
import Mathlib.Data.List.DropRight
import MultiAiRouter.Common.Json.Value

/-!
# A weekly report as a Discord embed

The title, the description and the fields of one embed. What the rest leaves of the embed is split evenly between
the fields; a field shows the lines that fit its share together with a line that counts the rest.

An array of the language has fewer than `2 ^ 32` elements.
-/

namespace MultiAiRouter.UsageReport

open Common

def embedTotalMaxChars : ℕ := 6000

def embedTitleMaxChars : ℕ := 256

def embedDescriptionMaxChars : ℕ := 4096

def embedFieldsMax : ℕ := 25

def embedFieldNameMaxChars : ℕ := 256

def embedFieldValueMaxChars : ℕ := 1024

/-- How many of the top models the embed shows. -/
def embedTopModels : ℕ := 5

/-- An array of the language. -/
abbrev JsArray (A : Type) := { items : List A // items.length < 2 ^ 32 }

structure ReportMeasures where
  requests : ℕ
  costMetered : Units
  costNotional : Units
  unpricedAttempts : Option ℕ
  deriving DecidableEq

structure ReportLine extends ReportMeasures where
  owner : Units
  tool : Option Units
  deriving DecidableEq

structure ReportModelLine where
  model : Option Units
  requests : ℕ
  deriving DecidableEq

structure ReportOverflowLine where
  keyName : Units
  poolName : Units
  provider : Option Units
  overflowAttempts : ℕ
  attempts : ℕ
  share : ℚ
  deriving DecidableEq

/-- What the embed is rendered from. -/
structure WeeklyReport where
  periodStart : Units
  periodEnd : Units
  totals : ReportMeasures
  people : JsArray ReportLine
  services : JsArray ReportLine
  unknownKind : JsArray ReportLine
  unassigned : ReportMeasures
  deleted : ReportMeasures
  none : ReportMeasures
  topModels : JsArray ReportModelLine
  overflow : JsArray ReportOverflowLine
  caveats : JsArray Units

structure DiscordEmbedField where
  name : Units
  value : Units
  deriving DecidableEq

structure DiscordEmbed where
  title : Units
  description : Units
  fields : List DiscordEmbedField
  deriving DecidableEq

structure FieldLines where
  name : Units
  lines : List Units
  deriving DecidableEq

section Text

/-- A dash between blanks. -/
def dash : Units := [32, 0x2014, 32]

/-- A dot between blanks. -/
def middleDot : Units := [32, 0xB7, 32]

def ellipsis : UInt16 := 0x2026

def joinLines (lines : List Units) : Units := List.intercalate [10] lines

/-- The line that counts what is not shown. -/
def moreText (count : ℕ) : Units := asciiUnits "+" ++ decimal count ++ asciiUnits " more"

/-- A digit in hex, in upper case. -/
def hexUpper (value : UInt8) : UInt16 := if value < 10 then 48 + value.toUInt16 else 55 + value.toUInt16

/-- A byte of a form, as a query spells it. -/
def formByte (byte : UInt8) : Units :=
  if byte = 32 then [43]
  else if 48 ≤ byte ∧ byte ≤ 57 ∨ 65 ≤ byte ∧ byte ≤ 90 ∨ 97 ≤ byte ∧ byte ≤ 122 ∨ byte ∈ [42, 45, 46, 95] then
    [byte.toUInt16]
  else [37, hexUpper (byte / 16), hexUpper (byte % 16)]

def formEncode (units : Units) : Units := (utf8Encode units).flatMap formByte

/-- The usage view of the week, where the address is known. -/
def usageWindowUrl (publicUrl : Option Units) (periodStart periodEnd : Units) : Option Units :=
  publicUrl.map fun url =>
    url.rdropWhile (· == 47) ++ asciiUnits "/usage?from=" ++
      formEncode (periodStart ++ asciiUnits "T00:00:00.000Z") ++ asciiUnits "&to=" ++
      formEncode (periodEnd ++ asciiUnits "T00:00:00.000Z")

/-- An amount with every decimal that is not zero, and two of them at least. -/
def money (value : Units) : Units :=
  let whole := value.takeWhile (· != 46)
  let fraction := (value.dropWhile (· != 46)).tail.takeWhile (· != 46)
  let trimmed := (fraction ++ [48, 48]).rdropWhile (· == 48)
  whole ++ 46 :: (trimmed ++ List.replicate (2 - trimmed.length) 48)

def measuresPhrase (measures : ReportMeasures) : Units :=
  List.intercalate middleDot
    ([decimal measures.requests ++ asciiUnits " req", asciiUnits "METERED $" ++ money measures.costMetered] ++
      (if measures.costNotional ≠ asciiUnits "0.000000" ∧ measures.costNotional ≠ asciiUnits "0" then
        [asciiUnits "NOTIONAL $" ++ money measures.costNotional] else []) ++
      match measures.unpricedAttempts with
      | none => [asciiUnits "unpriced: not measured"]
      | some attempts => if 0 < attempts then [asciiUnits "unpriced: " ++ decimal attempts] else [])

end Text

section Fit

/-- A line that is longer than the budget is cut. -/
def capLine (budget : ℕ) (line : Units) : Units :=
  if budget < line.length then line.take (budget - 1) ++ [ellipsis] else line

/-- How many lines are kept; the loop stops at the first that leaves no room for the line that counts the rest. -/
def fitKept (total budget : ℕ) : List Units → (index kept used : ℕ) → ℕ
  | [], _, kept, _ => kept
  | line :: rest, index, kept, used =>
    let cost := used + if kept = 0 then line.length else line.length + 1
    if budget < cost + 1 + (moreText (total - index - 1)).length then kept
    else fitKept total budget rest (index + 1) (index + 1) cost

def fitLines (lines : List Units) (budget : ℕ) : Units :=
  if lines.isEmpty then []
  else
    let capped := lines.map (capLine budget)
    let whole := joinLines capped
    if whole.length ≤ budget then whole
    else
      let kept := fitKept capped.length budget capped 0 0 0
      let overflowNote := moreText (capped.length - kept)
      if kept = 0 then overflowNote.take budget else joinLines (capped.take kept) ++ 10 :: overflowNote

end Fit

section Embed

def sectionField (name : Units) (lines : List ReportLine) : Option FieldLines :=
  if lines.isEmpty then none
  else
    some { name, lines := lines.map fun line =>
      line.owner ++ (line.tool.map fun tool => middleDot ++ tool).getD [] ++ dash ++
      measuresPhrase line.toReportMeasures }

def topModelsField (models : List ReportModelLine) : Option FieldLines :=
  if models.isEmpty then none
  else
    let shown := models.take embedTopModels
    let hidden := models.length - shown.length
    some
      { name := asciiUnits "Top models"
        lines := (shown.map fun line =>
            line.model.getD (asciiUnits "(none)") ++ dash ++ decimal line.requests ++ asciiUnits " req") ++
          if 0 < hidden then [asciiUnits "+" ++ decimal hidden ++ asciiUnits " more in the CSV"] else [] }

def overflowField (percentText : ℚ → Units) (overflow : List ReportOverflowLine) : Option FieldLines :=
  if overflow.isEmpty then none
  else
    some { name := asciiUnits "Pool overflow", lines := overflow.map fun line =>
      line.keyName ++ [32, 0x2192, 32] ++ line.poolName ++
        (line.provider.map fun provider => asciiUnits " (" ++ provider ++ asciiUnits ")").getD [] ++ dash ++
        decimal line.overflowAttempts ++ asciiUnits "/" ++ decimal line.attempts ++ asciiUnits " attempts (" ++
        percentText line.share ++ asciiUnits "%)" }

def caveatsField (caveats : List Units) : Option FieldLines :=
  if caveats.isEmpty then none else some { name := asciiUnits "Caveats", lines := caveats }

def outsideField (report : WeeklyReport) : FieldLines where
  name := asciiUnits "Outside owner sections"
  lines := [asciiUnits "unassigned" ++ dash ++ measuresPhrase report.unassigned,
    asciiUnits "deleted" ++ dash ++ measuresPhrase report.deleted,
    asciiUnits "none" ++ dash ++ measuresPhrase report.none]

/-- The fields a report may have, by importance. -/
def fieldOptions (percentText : ℚ → Units) (report : WeeklyReport) : List (Option FieldLines) :=
  [sectionField (asciiUnits "People") report.people.1, sectionField (asciiUnits "Services") report.services.1,
    sectionField (asciiUnits "Owner kind unknown") report.unknownKind.1, some (outsideField report),
    topModelsField report.topModels.1, overflowField percentText report.overflow.1, caveatsField report.caveats.1]

/-- The fields before they are fitted. -/
def buildFieldLines (percentText : ℚ → Units) (report : WeeklyReport) : List FieldLines :=
  ((fieldOptions percentText report).filterMap id).take embedFieldsMax

def embedTitle (report : WeeklyReport) : Units :=
  (asciiUnits "Weekly usage" ++ dash ++ report.periodStart ++ asciiUnits " to " ++ report.periodEnd).take
    embedTitleMaxChars

def embedDescription (report : WeeklyReport) (publicUrl : Option Units) : Units :=
  (joinLines
    ([some (measuresPhrase report.totals),
      (usageWindowUrl publicUrl report.periodStart report.periodEnd).map fun link =>
        asciiUnits "[Open this week in the Usage view](" ++ link ++ asciiUnits ")",
      some (asciiUnits "Per owner, key and pool: the attached CSV.")].filterMap id)).take embedDescriptionMaxChars

/-- What each field may say. -/
def fieldBudget (percentText : ℚ → Units) (report : WeeklyReport) (publicUrl : Option Units) : ℕ :=
  let fieldLines := buildFieldLines percentText report
  let nameChars := (fieldLines.map fun field => field.name.length).sum
  let remaining := (embedTotalMaxChars : ℤ) - (embedTitle report).length - (embedDescription report publicUrl).length -
    nameChars - fieldLines.length
  (max 32 (min (embedFieldValueMaxChars : ℤ) (remaining / max 1 fieldLines.length))).toNat

def buildEmbed (percentText : ℚ → Units) (report : WeeklyReport) (publicUrl : Option Units) : DiscordEmbed where
  title := embedTitle report
  description := embedDescription report publicUrl
  fields := (buildFieldLines percentText report).map fun field =>
    { name := field.name.take embedFieldNameMaxChars
      value := fitLines field.lines (fieldBudget percentText report publicUrl) }

end Embed

end MultiAiRouter.UsageReport
