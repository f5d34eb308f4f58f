/-
Whole alert files: well-formed alerts and lines that the pattern does not
match, in any order.

To the loader the end of the file and a line without a match are the same.
-/

import Packetpig.Detection.CoveredAlerts

namespace Packetpig

open Text

namespace SnortRecordReader

inductive FileLine where
  | alert (fired : SnortAlert)
  | other (line : Bytes) (plain : lineFeed ∉ line ∧ carriageReturn ∉ line)
      (unmatched : p.find line = none)

namespace FileLine

def text : FileLine → Bytes
  | .alert fired => fired.line
  | .other line _ _ => line

def IsOther : FileLine → Prop
  | .alert _ => False
  | .other _ _ _ => True

end FileLine

def alerts : List FileLine → List SnortAlert
  | [] => []
  | .alert fired :: lines => fired :: alerts lines
  | .other _ _ _ :: lines => alerts lines

def fileText (lines : List FileLine) : Bytes := lines.flatMap fun line => line.text ++ [lineFeed]

def rowOf (calendar : DateFields → Int) (line : Bytes) :
    Option (Except JavaException (Keyed SnortTuple)) :=
  (p.find line).map fun found => readGroups calendar found.1

/-- The pattern matches, the timestamp is one and the priority is a number. -/
def Accepted (calendar : DateFields → Int) (line : Bytes) : Prop :=
  ∃ found, p.find line = some found ∧
    (SimpleDateFormat.parse calendar (group found.1 1)).isSome ∧
    (JavaText.parseInt (group found.1 6)).isSome

theorem accepted_iff (calendar : DateFields → Int) (line : Bytes) :
    Accepted calendar line ↔ ∃ keyed, rowOf calendar line = some (.ok keyed) := by
  constructor
  · intro given
    rcases given with ⟨found, matched, isTime, isNumber⟩
    obtain ⟨ts, parsed⟩ := Option.isSome_iff_exists.mp isTime
    obtain ⟨priority, number⟩ := Option.isSome_iff_exists.mp isNumber
    simp only [rowOf, matched, Option.map_some, readGroups, parsed, number]
    exact ⟨_, rfl⟩
  · intro given
    rcases given with ⟨keyed, row⟩
    obtain ⟨found, matched, read⟩ := Option.map_eq_some_iff.mp row
    obtain ⟨ts, priority, parsed, number, -⟩ := readGroups_eq_ok read
    exact ⟨found, matched, by rw [parsed]; rfl, by rw [number]; rfl⟩

theorem accepted_of_covered (calendar : DateFields → Int) {alert : SnortAlert}
    (covered : alert.Covered) : Accepted calendar alert.line := by
  rw [accepted_iff, rowOf, find_line covered, Option.map_some,
    readGroups_groups calendar covered.priority]
  exact ⟨_, rfl⟩

variable (calendar : DateFields → Int)

private theorem fileText_cons (line : FileLine) (lines : List FileLine) :
    fileText (line :: lines) = line.text ++ lineFeed :: fileText lines := by
  rw [fileText, List.flatMap_cons, List.append_assoc]
  rfl

private theorem readLine_cons (line : FileLine) (lines : List FileLine) :
    JavaText.readLine (fileText (line :: lines)) = some (line.text, fileText lines) := by
  rw [fileText_cons]
  cases line with
  | alert fired => exact readLine_line fired _
  | other line plain unmatched => exact JavaText.readLine_append line _ plain.1 plain.2

section Calls

variable {calendar} {line : FileLine} (lines : List FileLine)

private theorem nextKeyValue_unmatched (row : rowOf calendar line.text = none) :
    nextKeyValue calendar readable (some (fileText (line :: lines))) =
      .stop .returnedFalse (some (fileText lines)) := by
  have missed := Option.map_eq_none_iff.mp row
  simp only [nextKeyValue, readable, readLine_cons, missed]

private theorem nextKeyValue_row {keyed : Keyed SnortTuple}
    (row : rowOf calendar line.text = some (.ok keyed)) :
    nextKeyValue calendar readable (some (fileText (line :: lines))) =
      .item keyed (some (fileText lines)) := by
  obtain ⟨found, matched, read⟩ := Option.map_eq_some_iff.mp row
  simp only [nextKeyValue, readable, readLine_cons, matched, read]

end Calls

/-- One row for each alert in order, and false only with nothing left to read. -/
def ReadsAlerts (reader : Option Bytes) (lines : List FileLine) : Prop :=
  ∃ rows final, Yields (nextKeyValue calendar readable) reader rows .returnedFalse final ∧
    List.Forall₂ (fun alert keyed => rowOf calendar alert.line = some (.ok keyed)) (alerts lines)
      rows ∧
    (final = none ∨ final = some [])

/-- Every alert is accepted, and only the last line may be another one. -/
structure Unbroken (lines : List FileLine) : Prop where
  accepted : ∀ alert ∈ alerts lines, Accepted calendar alert.line
  last : ∀ before line behind, lines = before ++ line :: behind → line.IsOther → behind = []

/-- The alerts have a form that the pattern reads, whatever the dates are. -/
structure Regular (lines : List FileLine) : Prop where
  covered : ∀ alert ∈ alerts lines, alert.Covered
  last : ∀ before line behind, lines = before ++ line :: behind → line.IsOther → behind = []

variable {calendar}

private theorem Regular.unbroken {lines : List FileLine} (regular : Regular lines) :
    Unbroken calendar lines where
  accepted alert member := accepted_of_covered calendar (regular.covered alert member)
  last := regular.last

private theorem unbroken_alert_iff (alert : SnortAlert) (lines : List FileLine) :
    Unbroken calendar (.alert alert :: lines) ↔
      Accepted calendar alert.line ∧ Unbroken calendar lines := by
  constructor
  · intro unbroken
    obtain ⟨here, later⟩ := List.forall_mem_cons.mp unbroken.accepted
    refine ⟨here, later, fun before line behind same => ?_⟩
    exact unbroken.last (.alert alert :: before) line behind (by rw [same, List.cons_append])
  · intro found
    rcases found with ⟨here, unbroken⟩
    refine ⟨List.forall_mem_cons.mpr ⟨here, unbroken.accepted⟩, fun before line behind same => ?_⟩
    cases before with
    | nil =>
        intro isOther
        rw [← (List.cons.inj same).1] at isOther
        exact isOther.elim
    | cons head before => exact unbroken.last before line behind (List.cons.inj same).2

private theorem unbroken_other_iff {line : FileLine} (isOther : line.IsOther)
    (lines : List FileLine) : Unbroken calendar (line :: lines) ↔ lines = [] := by
  constructor
  · intro unbroken
    exact unbroken.last [] line lines rfl isOther
  · intro equal
    subst equal
    refine ⟨?_, fun before other behind same _ => ?_⟩
    · cases line with
      | alert alert => exact isOther.elim
      | other => exact fun _ absent => absurd absent List.not_mem_nil
    · cases before with
      | nil => exact (List.cons.inj same).2.symm
      | cons head before => simp at same

private theorem fileText_eq_nil_iff (lines : List FileLine) : fileText lines = [] ↔ lines = [] := by
  cases lines with
  | nil => exact iff_of_true rfl rfl
  | cons line lines => rw [fileText_cons]; simp

private theorem readsAlerts_some_iff (lines : List FileLine) :
    ReadsAlerts calendar (some (fileText lines)) lines ↔ Unbroken calendar lines := by
  induction lines with
  | nil =>
      refine iff_of_true ⟨[], some [], .stop rfl, .nil, .inr rfl⟩ ⟨?_, ?_⟩
      · exact fun _ absent => absurd absent List.not_mem_nil
      · intro before line behind same
        simp at same
  | cons line lines ih =>
      cases line with
      | alert fired =>
          rw [unbroken_alert_iff, ← ih, accepted_iff]
          constructor
          · intro found
            rcases found with ⟨rows, final, run, given, exhausted⟩
            cases given with
            | cons row others =>
                have call : nextKeyValue calendar readable
                    (some (fileText (.alert fired :: lines))) = _ := nextKeyValue_row lines row
                cases run with
                | item pulled rest =>
                    rw [call] at pulled
                    cases pulled
                    exact ⟨⟨_, row⟩, _, final, rest, others, exhausted⟩
          · intro found
            rcases found with ⟨⟨keyed, row⟩, rows, final, run, given, exhausted⟩
            exact ⟨keyed :: rows, final, .item (nextKeyValue_row lines row) run, .cons row given,
              exhausted⟩
      | other other plain unmatched =>
          have row : rowOf calendar (FileLine.other other plain unmatched).text = none :=
            Option.map_eq_none_iff.mpr unmatched
          have call := nextKeyValue_unmatched lines row
          have isOther : (FileLine.other other plain unmatched).IsOther := trivial
          rw [unbroken_other_iff isOther, ← fileText_eq_nil_iff]
          constructor
          · intro found
            rcases found with ⟨rows, final, run, -, exhausted⟩
            obtain ⟨-, -, rfl⟩ := run.unique (.stop call)
            simpa using exhausted
          · intro nothing
            rw [fileText_eq_nil_iff] at nothing
            subst nothing
            exact ⟨[], _, .stop call, .nil, .inr rfl⟩

private theorem readsAlerts_file_iff (lines : List FileLine) :
    ReadsAlerts calendar (initializeReader (fileText lines)) lines ↔ Unbroken calendar lines := by
  rw [← readsAlerts_some_iff, initializeReader]
  by_cases empty : fileText lines = []
  · -- Both the missing reader and one on an empty file return false at once.
    rw [if_pos empty]
    obtain rfl := (fileText_eq_nil_iff lines).mp empty
    exact iff_of_true ⟨[], none, .stop rfl, .nil, .inl rfl⟩ ⟨[], some [], .stop rfl, .nil, .inr rfl⟩
  · rw [if_neg empty]

/-- The reader gives back every alert of a file exactly when the file is not
broken, and it does so for every file of alerts that the pattern covers. -/
theorem readsAlerts_iff (calendar : DateFields → Int) (lines : List FileLine) :
    (ReadsAlerts calendar (initializeReader (fileText lines)) lines ↔ Unbroken calendar lines) ∧
      (Regular lines → ReadsAlerts calendar (initializeReader (fileText lines)) lines) :=
  ⟨readsAlerts_file_iff lines, fun regular =>
    (readsAlerts_file_iff lines).mpr regular.unbroken⟩

theorem readsAlerts_two : ReadsAlerts (fun _ => 0)
    (initializeReader (fileText [.alert (alertAt 426068), .alert (alertAt 674725)]))
    [.alert (alertAt 426068), .alert (alertAt 674725)] := by
  apply (readsAlerts_iff _ _).2
  constructor
  · intro alert member
    simp only [alerts, List.mem_cons, List.not_mem_nil, or_false] at member
    rcases member with rfl | rfl
    · exact alertAt_covered _
    · exact alertAt_covered _
  · intro before line behind same isOther
    have member : line ∈ [FileLine.alert (alertAt 426068), .alert (alertAt 674725)] := by
      rw [same]
      simp
    simp only [List.mem_cons, List.not_mem_nil, or_false] at member
    rcases member with rfl | rfl
    · exact isOther.elim
    · exact isOther.elim

/-- An alert of a rule without a priority, which snort leaves out. -/
def unprioritized : Bytes :=
  ascii "11/30/11-20:23:31.426068  [**] [1:1000001:0] ping [**] \x7bICMP\x7d 10.0.0.1 -> 10.0.0.2"

private theorem unprioritized_unmatched : p.find unprioritized = none := by
  have member : Piece.literal (ascii "[Priority: ") ∈ p := by
    simp [p, tsPattern, sigPattern, messagePattern, priorityPattern]
  apply Pattern.find_eq_none_of_not_infix member
  intro inside
  have letter : (121 : Byte) ∈ unprioritized :=
    inside.subset (show (121 : Byte) ∈ ascii "[Priority: " by decide)
  exact absurd letter (by decide)

def unprioritizedLine : FileLine :=
  .other unprioritized ⟨by decide, by decide⟩ unprioritized_unmatched

theorem alert_behind_unprioritized_hidden :
    ¬ ReadsAlerts (fun _ => 0)
      (initializeReader (fileText [unprioritizedLine, .alert (alertAt 674725)]))
      [unprioritizedLine, .alert (alertAt 674725)] := by
  have row : rowOf (fun _ => 0) unprioritizedLine.text = none :=
    Option.map_eq_none_iff.mpr unprioritized_unmatched
  have call := nextKeyValue_unmatched [.alert (alertAt 674725)] row
  intro found
  rcases found with ⟨rows, final, run, given, -⟩
  obtain ⟨rfl, -, -⟩ := run.unique (.stop call)
  cases given

end SnortRecordReader

end Packetpig
