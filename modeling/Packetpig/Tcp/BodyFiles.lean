/-
The temporary files that HttpBodyDumpEmitter leaves behind. A file whose row is
printed without its name is removed; the file of a message that the filter
rejects stays.
-/

import Packetpig.Tcp.RequestFilenames

namespace Packetpig

open Text

namespace HttpBodyDumpEmitter

def printedNames (base : List Bytes) (printed : List (List Bytes)) : List Bytes :=
  printed.filterMap fun row => row[base.length + 7]?

/-- Of the files that were created, those are left whose names were printed: one
for each row if files are extracted, and none otherwise. -/
def FilesPrinted (settings : BodyDumpSettings) (base : List Bytes)
    (files : List (Bytes × Bytes)) (final : BodyDumpState) : Prop :=
  ∃ kept, final.files = kept ++ files ∧
    (kept.map Prod.fst).Perm (printedNames base final.printed) ∧
    kept.length = if settings.extractFiles then final.printed.length else 0

/-- The files that were created and are left are those of the rejected messages
and those whose names were printed. -/
structure Accounted (settings : BodyDumpSettings) (base : List Bytes)
    (files : List (Bytes × Bytes)) (seen : List (HttpRecord × Nat)) (state : BodyDumpState)
    (kept : List (Bytes × Bytes)) (leaked : List Bytes) : Prop where
  files_eq : state.files = kept ++ files
  names : (kept.map Prod.fst).Perm (leaked ++ printedNames base state.printed)
  leaks : leaked.length = (seen.filter fun entry => !accepts settings entry.1.payload).length
  rows : (printedNames base state.printed).length =
    if settings.extractFiles then state.printed.length else 0

theorem printedNames_concat (base : List Bytes) (printed : List (List Bytes))
    (row : List Bytes) :
    printedNames base (printed ++ [row]) =
      printedNames base printed ++ row[base.length + 7]?.toList := by
  unfold printedNames
  rw [List.filterMap_append]
  cases name : row[base.length + 7]? with
  | none => simp [name]
  | some filename => simp [name]

section Rows

variable (settings : BodyDumpSettings) (base : List Bytes) (filetype mime ext payload : Bytes)

private theorem examined_length :
    (base ++ examinedColumns settings filetype mime ext payload).length = base.length + 7 :=
  List.length_append

theorem name_of_extracted (filename request : Bytes) :
    (base ++ examinedColumns settings filetype mime ext payload ++
      [filename, request])[base.length + 7]? = some filename := by
  rw [List.getElem?_append_right (by rw [examined_length]), examined_length, Nat.sub_self]
  rfl

theorem name_of_removed :
    (base ++ examinedColumns settings filetype mime ext payload)[base.length + 7]? = none :=
  List.getElem?_eq_none (by rw [examined_length])

end Rows

section Emit

variable {settings : BodyDumpSettings} {base : List Bytes} {http : List HttpRecord}
  {files : List (Bytes × Bytes)}

theorem Accounted.dump {seen : List (HttpRecord × Nat)} {state after : BodyDumpState}
    {kept : List (Bytes × Bytes)} {leaked : List Bytes} {convo : HttpRecord} {offset : Nat}
    (before : Accounted settings base files seen state kept leaked)
    (done : Dumped settings base http state convo offset after) :
    ∃ kept leaked,
      Accounted settings base files (seen ++ [(convo, offset)]) after kept leaked := by
  cases done with
  | rejected no =>
      refine ⟨created settings state convo :: kept, (created settings state convo).1 :: leaked,
        ?_, ?_, ?_, before.rows⟩
      · rw [before.files_eq, List.cons_append]
      · exact before.names.cons _
      · simp [before.leaks, no]
  | extracted yes extract filetype mime ext =>
      refine ⟨created settings state convo :: kept, leaked, ?_, ?_, ?_, ?_⟩
      · rw [before.files_eq, List.cons_append]
      · rw [printedNames_concat, name_of_extracted, Option.toList_some, ← List.append_assoc]
        exact (before.names.cons _).trans (List.perm_append_singleton _ _).symm
      · simp [before.leaks, yes]
      · rw [printedNames_concat, name_of_extracted, List.length_append, before.rows, if_pos extract,
          if_pos extract, List.length_append]
        rfl
  | removed yes keep filetype mime ext =>
      refine ⟨kept, leaked, before.files_eq, ?_, ?_, ?_⟩
      · rw [printedNames_concat, name_of_removed, Option.toList_none, List.append_nil]
        exact before.names
      · simp [before.leaks, yes]
      · rw [printedNames_concat, name_of_removed, Option.toList_none, List.append_nil, before.rows,
          keep]
        rfl

theorem accounted_of_emit {final : BodyDumpState}
    (emitted : emit settings files base http = .ok final) :
    ∃ kept leaked, Accounted settings base files http.zipIdx final kept leaked := by
  apply foldlM_invariant
    (fun seen state => ∃ kept leaked, Accounted settings base files seen state kept leaked)
    _ _ emitted
  · intro seen state entry after accounted done
    rcases accounted with ⟨kept, leaked, before⟩
    exact before.dump (dumped_of_eq_ok done)
  · exact ⟨[], [], rfl, .nil, rfl, by simp [printedNames]⟩

private theorem filesPrinted_iff_no_leak {seen : List (HttpRecord × Nat)} {final : BodyDumpState}
    {kept : List (Bytes × Bytes)} {leaked : List Bytes}
    (accounted : Accounted settings base files seen final kept leaked) :
    FilesPrinted settings base files final ↔ leaked = [] := by
  have total := accounted.names.length_eq
  rw [List.length_map, List.length_append] at total
  constructor
  · intro printed
    rcases printed with ⟨kept', same, names, -⟩
    rw [accounted.files_eq, List.append_cancel_right_eq] at same
    have count := names.length_eq
    rw [List.length_map, ← same] at count
    exact List.eq_nil_of_length_eq_zero (by omega)
  · intro none
    subst none
    refine ⟨kept, accounted.files_eq, accounted.names, ?_⟩
    rw [← accounted.rows, total, List.length_nil, Nat.zero_add]

/-- Exactly if the filter lets every message through. -/
theorem filesPrinted_iff {final : BodyDumpState}
    (emitted : emit settings files base http = .ok final) :
    FilesPrinted settings base files final ↔
      ∀ convo ∈ http, accepts settings convo.payload = true := by
  obtain ⟨kept, leaked, accounted⟩ := accounted_of_emit emitted
  have entries : (∀ convo ∈ http, accepts settings convo.payload = true) ↔
      ∀ entry ∈ http.zipIdx, accepts settings entry.1.payload = true := by
    conv_lhs => rw [← List.zipIdx_map_fst 0 http, List.forall_mem_map]
  rw [filesPrinted_iff_no_leak accounted, entries, ← List.length_eq_zero_iff, accounted.leaks,
    List.length_eq_zero_iff, List.filter_eq_nil_iff]
  simp only [Bool.not_eq_true', Bool.not_eq_false]

end Emit

theorem filesPrinted_empty : ∃ final,
    emit emptyFileSettings [] [] [(emptyMessage "HTTP/1.1 200 OK").record .c] = .ok final ∧
      FilesPrinted emptyFileSettings [] [] final :=
  ⟨_, rfl, (filesPrinted_iff rfl).mpr (List.forall_mem_singleton.mpr rfl)⟩

def imageSettings : BodyDumpSettings :=
  { emptyFileSettings with
    mimeType := some (ascii "image/png")
    extractFiles := false }

/-- No row is printed and the file is still there. -/
theorem rejected_file_stays : ¬ ∀ final,
    emit imageSettings [] [] [(emptyMessage "HTTP/1.1 200 OK").record .c] = .ok final →
      FilesPrinted imageSettings [] [] final := by
  intro always
  obtain ⟨kept, same, -, count⟩ := always _ rfl
  rw [List.eq_nil_of_length_eq_zero count] at same
  cases same

end HttpBodyDumpEmitter

end Packetpig
