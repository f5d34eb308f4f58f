/-
The command line that the reader of files builds, as tcp.py parses it. A filter
and a dump path together run into one word.
-/

import Packetpig.Conversation.ConversationFileRecordReader
import Packetpig.Tcp.StreamProcess
import Packetpig.Tcp.RequestFilenames

namespace Packetpig

open Text JavaText

namespace ConversationFileRecordReader

def optionWords : List Bytes :=
  [ascii "-of", ascii "tsv", ascii "-om", ascii "http_body", ascii "-r", ascii "/dev/stdin"]

def extraWords (settings : FileReaderSettings) : List Bytes :=
  if given settings.filter then
    [ascii "-i", settings.filter.getD [] ++ if shouldDump settings then ascii "-xf" else []]
  else if shouldDump settings then [ascii "-xf"]
  else []

def endWords (settings : FileReaderSettings) : List Bytes :=
  if given settings.filter && !shouldDump settings then [] else [[]]

private theorem command_eq (settings : FileReaderSettings) :
    command settings = [space].intercalate
      ((settings.pathToTcp :: (optionWords ++ extraWords settings)) ++ endWords settings) := by
  unfold command extraWords endWords
  have front : ascii " -of tsv -om http_body -r /dev/stdin " =
      space :: ([space].intercalate optionWords ++ [space]) := by decide
  have filterWord : ascii "-i " = ascii "-i" ++ [space] := by decide
  have dumpWord : ascii "-xf " = ascii "-xf" ++ [space] := by decide
  rw [front, filterWord, dumpWord]
  cases filter : given settings.filter <;> cases dump : shouldDump settings <;>
    simp [optionWords]

private theorem plain_optionWords : ∀ word ∈ optionWords, space ∉ word := by decide

private theorem plain_extraWords {settings : FileReaderSettings}
    (noBlank : space ∉ settings.filter.getD []) :
    ∀ word ∈ extraWords settings, space ∉ word := by
  intro word member
  unfold extraWords at member
  have dumpWord : space ∉ if shouldDump settings then ascii "-xf" else [] := by
    cases shouldDump settings <;> decide
  split at member
  · rcases List.mem_cons.mp member with isOption | isFilter
    · rw [isOption]
      decide
    · rw [List.mem_singleton.mp isFilter, List.mem_append, not_or]
      exact ⟨noBlank, dumpWord⟩
  · split at member
    · rw [List.mem_singleton.mp member]
      decide
    · cases member

private theorem extraWords_last (settings : FileReaderSettings) :
    dropTrailingEmpty (optionWords ++ extraWords settings) =
      optionWords ++ extraWords settings := by
  unfold extraWords
  cases filter : given settings.filter with
  | true =>
      have nonempty : settings.filter.getD [] ≠ [] := by simpa [given] using filter
      rw [if_pos rfl, List.append_cons]
      exact dropTrailingEmpty_concat _ (List.append_ne_nil_of_left_ne_nil nonempty _)
  | false =>
      cases shouldDump settings with
      | true => exact dropTrailingEmpty_concat _ (List.cons_ne_nil _ _)
      | false => rfl

theorem commandLine_eq {settings : FileReaderSettings} (noBlank : space ∉ settings.pathToTcp)
    (noBlankFilter : space ∉ settings.filter.getD []) :
    commandLine settings = settings.pathToTcp :: (optionWords ++ extraWords settings) := by
  have plainWords : ∀ word ∈ settings.pathToTcp :: (optionWords ++ extraWords settings),
      space ∉ word := by
    intro word member
    rcases List.mem_cons.mp member with isPath | inWords
    · rwa [isPath]
    · rcases List.mem_append.mp inWords with isOption | isExtra
      · exact plain_optionWords word isOption
      · exact plain_extraWords noBlankFilter word isExtra
  have plainEnd : ∀ word ∈ endWords settings, space ∉ word := by
    unfold endWords
    split <;> simp
  have ended : dropTrailingEmpty
        ((settings.pathToTcp :: (optionWords ++ extraWords settings)) ++ endWords settings) =
      dropTrailingEmpty (settings.pathToTcp :: (optionWords ++ extraWords settings)) := by
    unfold endWords
    split
    · rw [List.append_nil]
    · exact dropTrailingEmpty_concat_nil _
  have kept : dropTrailingEmpty (optionWords ++ extraWords settings) ≠ [] := by
    rw [extraWords_last]
    exact List.cons_ne_nil _ _
  unfold commandLine
  rw [command_eq, split_intercalate_of_plain (by simp [optionWords])
    fun word member => (List.mem_append.mp member).elim (plainWords word) (plainEnd word), ended]
  have whole := dropTrailingEmpty_append [settings.pathToTcp] kept
  rwa [extraWords_last] at whole

open ArgumentParser (parseArgs_store parseArgs_storeTrue isValue_of_head IsOptionString
  dash)

/-- The configuration behind the options that are always there. -/
def fileConfig : StreamConfig :=
  { StreamProcess.defaults with
    outputFormat := ascii "tsv"
    outputMode := ascii "http_body"
    filename := some (ascii "/dev/stdin") }

private theorem parseArgs_optionWords (words : List Bytes) :
    StreamProcess.parseArgs (optionWords ++ words) =
      ArgumentParser.parseArgs StreamProcess.optionStrings fileConfig none words := by
  unfold StreamProcess.parseArgs optionWords
  rw [List.cons_append, List.cons_append, parseArgs_store ⟨rfl, by decide⟩ rfl (by decide),
    List.cons_append, List.cons_append, parseArgs_store ⟨rfl, by decide⟩ rfl (by decide),
    List.cons_append, List.cons_append, parseArgs_store ⟨rfl, by decide⟩ rfl (by decide),
    List.nil_append]
  rfl

def parsedConfig (settings : FileReaderSettings) : StreamConfig :=
  if given settings.filter then
    { fileConfig with
      mimeType :=
        some (settings.filter.getD [] ++ if shouldDump settings then ascii "-xf" else []) }
  else { fileConfig with extractFiles := shouldDump settings }

theorem parseArgs_words {settings : FileReaderSettings}
    (noDash : (settings.filter.getD []).head? ≠ some dash) :
    StreamProcess.parseArgs (optionWords ++ extraWords settings) =
      some (parsedConfig settings) := by
  rw [parseArgs_optionWords]
  unfold extraWords parsedConfig
  cases filter : given settings.filter with
  | true =>
      have nonempty : settings.filter.getD [] ≠ [] := by simpa [given] using filter
      obtain ⟨first, rest, word⟩ := List.exists_cons_of_ne_nil nonempty
      rw [word, List.head?_cons] at noDash
      have shape : IsOptionString (ascii "-i") := ⟨rfl, by decide⟩
      rw [if_pos rfl, if_pos rfl, word, List.cons_append,
        parseArgs_store shape rfl (isValue_of_head _ (by rwa [List.head?_cons]))]
      rfl
  | false =>
      have shape : IsOptionString (ascii "-xf") := ⟨rfl, by decide⟩
      cases shouldDump settings with
      | true =>
          rw [if_neg Bool.false_ne_true, if_pos rfl, parseArgs_storeTrue shape rfl]
          rfl
      | false => rfl

section Columns

open HttpBodyDumpEmitter

private theorem tab_notMem_nameFromStatus (status : Bytes) : tab ∉ nameFromStatus status := by
  unfold nameFromStatus
  split
  · rename_i target _ _
    intro member
    obtain ⟨letter, -, same⟩ := List.mem_map.mp ((sliceFrom_suffix _ _).subset member)
    by_cases isValid : validFilenameChar letter = true
    · rw [if_pos isValid] at same
      subst same
      cases isValid
    · rw [if_neg isValid] at same
      cases same
  · exact List.not_mem_nil

private theorem requestFilename_cases (http : List HttpRecord) (offset : Nat)
    (convo : HttpRecord) : requestFilename http offset convo = ascii "-" ∨
      requestFilename http offset convo ≠ [] ∧
        ∃ status, requestFilename http offset convo = nameFromStatus status := by
  by_cases response : convo.direction = .c
  · simp only [requestFilename, if_pos response]
    cases item http ((offset : Int) - 1) with
    | none => exact .inl rfl
    | some other =>
        by_cases empty : nameFromStatus other.status = []
        · exact .inl (if_pos empty)
        · right
          rw [Option.elim_some, if_neg empty]
          exact ⟨empty, other.status, rfl⟩
  · left
    simp only [requestFilename, if_neg response]
    rfl

private theorem requestFilename_spec (http : List HttpRecord) (offset : Nat)
    (convo : HttpRecord) : tab ∉ requestFilename http offset convo ∧
      requestFilename http offset convo ≠ [] := by
  rcases requestFilename_cases http offset convo with dashOnly | ⟨nonempty, status, name⟩
  · rw [dashOnly]
    decide
  · refine ⟨?_, nonempty⟩
    rw [name]
    exact tab_notMem_nameFromStatus status

def dumpColumns (extract : Bool) : Nat := if extract then 9 else 7

theorem split_row {settings : BodyDumpSettings} {base : List Bytes} {http : List HttpRecord}
    {state after : BodyDumpState} {convo : HttpRecord} {offset : Nat}
    (done : Dumped settings base http state convo offset after) {row : List Bytes}
    (member : row ∈ after.printed) : row ∈ state.printed ∨
      base.length + dumpColumns settings.extractFiles ≤
        (split tab ([tab].intercalate row)).length := by
  cases done with
  | rejected no => exact .inl member
  | extracted yes extract filetype mime ext =>
      rcases List.mem_append.mp member with earlier | here
      · exact .inl earlier
      · right
        rw [List.mem_singleton.mp here, List.append_cons]
        have columns := length_le_split_intercalate
          (base ++ examinedColumns settings filetype mime ext convo.payload ++
            [(created settings state convo).1])
          (by simp [examinedColumns]) (requestFilename_spec http offset convo).1
          (requestFilename_spec http offset convo).2
        apply Nat.le_trans _ columns
        simp [dumpColumns, extract, examinedColumns]
  | removed yes keep filetype mime ext =>
      rcases List.mem_append.mp member with earlier | here
      · exact .inl earlier
      · right
        rw [List.mem_singleton.mp here]
        have noTab : tab ∉ decimal convo.payload.length := notMem_decimal rfl _
        have columns := length_le_split_intercalate
          (base ++ (examinedColumns settings filetype mime ext convo.payload).dropLast)
          (by simp [examinedColumns]) noTab (decimal_ne_nil convo.payload.length)
        rw [List.append_assoc] at columns
        apply Nat.le_trans _ columns
        simp [dumpColumns, keep, examinedColumns]

theorem split_printed {settings : BodyDumpSettings} {files : List (Bytes × Bytes)}
    {base : List Bytes} {http : List HttpRecord} {final : BodyDumpState}
    (emitted : emit settings files base http = .ok final) :
    ∀ row ∈ final.printed, base.length + dumpColumns settings.extractFiles ≤
      (split tab ([tab].intercalate row)).length := by
  apply foldlM_invariant
    (fun _ state => ∀ row ∈ state.printed, base.length + dumpColumns settings.extractFiles ≤
      (split tab ([tab].intercalate row)).length) _ _ emitted
  · intro _ state entry after enough done row member
    rcases split_row (dumped_of_eq_ok done) member with earlier | here
    · exact enough row earlier
    · exact here
  · intro row member
    cases member

end Columns

/-- With this configuration, each row that tcp.py prints for a connection has the
columns that the reader takes from it. -/
def EnoughColumns (settings : FileReaderSettings) (config : StreamConfig) : Prop :=
  ∀ (τ : Type) (stream : StreamSettings τ) (out : OutRecord τ) (dump : BodyDumpSettings)
    (files : List (Bytes × Bytes)) (final : BodyDumpState),
    dump.mimeType = config.mimeType → dump.extractFiles = config.extractFiles →
    HttpBodyDumpEmitter.emit dump files (StreamHandler.base stream out) out.http = .ok final →
    ∀ row ∈ final.printed,
      columnsIndexed settings ≤ (split tab ([tab].intercalate row)).length

/-- tcp.py does what the reader was set up for. -/
def AskedFor (settings : FileReaderSettings) : Prop :=
  ∃ config, StreamProcess.parseArgs (commandLine settings).tail = some config ∧
    config.outputFormat = ascii "tsv" ∧ config.outputMode = ascii "http_body" ∧
    config.mimeType = (if given settings.filter then settings.filter else none) ∧
    (config.extractFiles = true ↔ given settings.fileDumpPath = true) ∧
    EnoughColumns settings config

private theorem enoughColumns_of_extract {settings : FileReaderSettings} {config : StreamConfig}
    (same : config.extractFiles = shouldDump settings) : EnoughColumns settings config := by
  intro τ stream out dump files final _ extract emitted row member
  have columns := split_printed emitted row member
  rw [extract, same] at columns
  refine Nat.le_trans (Nat.le_of_eq ?_) columns
  unfold columnsIndexed dumpColumns
  cases shouldDump settings <;> rfl

private theorem parsedConfig_of_not_both {settings : FileReaderSettings}
    (notBoth : given settings.filter = false ∨ given settings.fileDumpPath = false) :
    parsedConfig settings =
      { fileConfig with
        mimeType := if given settings.filter then settings.filter else none
        extractFiles := shouldDump settings } := by
  unfold parsedConfig
  cases filter : given settings.filter with
  | false => rfl
  | true =>
      have noDump : shouldDump settings = false := notBoth.resolve_left (by simp [filter])
      rw [if_pos rfl, if_pos rfl, noDump, if_neg Bool.false_ne_true, List.append_nil]
      cases value : settings.filter with
      | none =>
          rw [value] at filter
          cases filter
      | some word => rfl

section Parsed

variable {settings : FileReaderSettings} (noBlank : space ∉ settings.pathToTcp)
  (noBlankFilter : space ∉ settings.filter.getD [])
  (noDash : (settings.filter.getD []).head? ≠ some dash)

include noBlank noBlankFilter noDash

theorem parseArgs_commandLine :
    StreamProcess.parseArgs (commandLine settings).tail = some (parsedConfig settings) := by
  rw [commandLine_eq noBlank noBlankFilter]
  exact parseArgs_words noDash

theorem not_both_of_askedFor (asked : AskedFor settings) :
    given settings.filter = false ∨ given settings.fileDumpPath = false := by
  rcases asked with ⟨config, same, -, -, -, extract, -⟩
  cases (parseArgs_commandLine noBlank noBlankFilter noDash).symm.trans same
  cases filter : given settings.filter with
  | false => exact .inl rfl
  | true =>
      right
      unfold parsedConfig at extract
      rw [if_pos filter] at extract
      cases dump : given settings.fileDumpPath with
      | false => rfl
      | true => cases extract.mpr dump

/-- Exactly if not both a filter and a dump path are given. -/
theorem askedFor_iff :
    AskedFor settings ↔ given settings.filter = false ∨ given settings.fileDumpPath = false := by
  constructor
  · exact not_both_of_askedFor noBlank noBlankFilter noDash
  · intro notBoth
    have parsed := parseArgs_commandLine noBlank noBlankFilter noDash
    rw [parsedConfig_of_not_both notBoth] at parsed
    exact ⟨_, parsed, rfl, rfl, rfl, Iff.rfl, enoughColumns_of_extract rfl⟩

end Parsed

def dumpSettings (filter : Option Bytes) : FileReaderSettings :=
  { pathToTcp := ascii "lib/scripts/tcp.py"
    fileDumpPath := some (ascii "output")
    filter
    parseFloat := fun _ => some 0
    moveFromLocalFile := fun _ _ => .ok () }

theorem askedFor_all : AskedFor (dumpSettings none) :=
  (askedFor_iff (by decide) (by decide) (by decide)).mpr (.inl rfl)

/-- The filter becomes `image/png-xf` and no files are extracted. -/
theorem images_not_dumped : ¬ AskedFor (dumpSettings (some (ascii "image/png"))) := by
  intro asked
  rcases not_both_of_askedFor (by decide) (by decide) (by decide) asked with noFilter | noDump
  · cases noFilter
  · cases noDump

end ConversationFileRecordReader

end Packetpig
