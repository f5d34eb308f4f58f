/-
The transcripts that p0f prints, and the tuples that the reader makes of them.

The two records of a title go to the array when another title comes, so those
of the last run of blocks stay behind.
-/

import Packetpig.Detection.FingerprintRecordReader
import Packetpig.Library.Runs

namespace Packetpig

open Text

inductive FingerprintSide where
  | client
  | server
deriving DecidableEq, Repr

def FingerprintSide.key : FingerprintSide → Bytes
  | client => ascii "client"
  | server => ascii "server"

/-- A line `key = value`; both are printed with blanks around them. The key ends
at the first ` = `. -/
structure FingerprintLine where
  keyText : Bytes
  valueText : Bytes
  keyPlain : ∀ letter ∈ keyText, JavaText.dot letter = true
  keyEnds : ∀ count < keyText.length, ¬ ascii " = " <+: keyText.drop count ++ ascii " = "
  valuePlain : ∀ letter ∈ valueText, JavaText.dot letter = true

namespace FingerprintLine

def text (line : FingerprintLine) : Bytes :=
  ascii "| " ++ (line.keyText ++ (ascii " = " ++ line.valueText))

def name (line : FingerprintLine) : Bytes := JavaText.trim line.keyText

def given (line : FingerprintLine) : Bytes × Bytes :=
  (line.name, JavaText.trim line.valueText)

end FingerprintLine

/-- `src/sport -> dst/dport`. -/
structure FingerprintTitle where
  src : Bytes
  sport : Bytes
  dst : Bytes
  dport : Bytes
  named : src ≠ [] ∧ sport ≠ [] ∧ dst ≠ [] ∧ dport ≠ []
  srcPlain : ∀ letter ∈ src, FingerprintRecordReader.notSlash letter = true ∧
    JavaText.dot letter = true
  sportDigits : ∀ letter ∈ sport, isDigit 10 letter = true
  dstPlain : ∀ letter ∈ dst, FingerprintRecordReader.notSlash letter = true ∧
    JavaText.dot letter = true
  dportDigits : ∀ letter ∈ dport, isDigit 10 letter = true

def FingerprintTitle.text (title : FingerprintTitle) : Bytes :=
  ascii " " ++ (title.src ++ (ascii "/" ++ (title.sport ++ (ascii " -> " ++
    (title.dst ++ (ascii "/" ++ title.dport))))))

structure Ignored (line : Bytes) : Prop where
  plain : ∀ letter ∈ line, JavaText.dot letter = true
  noTitle : (ascii ".").isPrefixOf line = false
  noField : (ascii "| ").isPrefixOf line = false

structure FingerprintBlock where
  title : FingerprintTitle
  trail : Bytes
  trailPlain : ∀ letter ∈ trail, JavaText.dot letter = true
  trailEnds : ∀ letter ∈ trail.head?, isDigit 10 letter = false
  side : FingerprintSide
  sideLine : FingerprintLine
  sideNamed : sideLine.name = side.key
  fields : List FingerprintLine
  fieldsNamed : ∀ field ∈ fields, ∀ side : FingerprintSide, field.name ≠ side.key
  closing : List Bytes
  closingIgnored : ∀ line ∈ closing, Ignored line

namespace FingerprintBlock

def titleText (block : FingerprintBlock) : Bytes :=
  ascii ".-[" ++ (block.title.text ++ block.trail)

def lines (block : FingerprintBlock) : List Bytes :=
  block.titleText :: block.sideLine.text :: (block.fields.map FingerprintLine.text ++ block.closing)

def givenOn (side : FingerprintSide) (block : FingerprintBlock) : List (Bytes × Bytes) :=
  if block.side = side then block.fields.map FingerprintLine.given else []

end FingerprintBlock

structure FingerprintTranscript where
  banner : List Bytes
  bannerIgnored : ∀ line ∈ banner, Ignored line
  blocks : List FingerprintBlock

namespace FingerprintTranscript

def lines (transcript : FingerprintTranscript) : List Bytes :=
  transcript.banner ++ transcript.blocks.flatMap FingerprintBlock.lines

def text (transcript : FingerprintTranscript) : Bytes :=
  transcript.lines.flatMap (· ++ [lineFeed])

def runs (transcript : FingerprintTranscript) : List (List FingerprintBlock) :=
  Runs.split (fun block => block.title.text) transcript.blocks

end FingerprintTranscript

def recognized (name : Bytes) : Bool := FingerprintField.all.any fun field => name = field.key

def lastValue (key : Bytes) (given : List (Bytes × Bytes)) : Option Bytes :=
  ((given.filter fun pair => pair.1 = key).getLast?).map Prod.snd

def sideRows (addresses : List Bytes) (given : List (Bytes × Bytes)) :
    List (List (Option Bytes)) :=
  if given.any fun pair => recognized pair.1 then
    [addresses.map some ++ FingerprintField.all.map fun field => lastValue field.key given]
  else []

def runRows (run : List FingerprintBlock) : List (List (Option Bytes)) :=
  match run with
  | [] => []
  | first :: _ =>
      let title := first.title
      sideRows [title.src, title.sport, title.dst, title.dport]
          (run.flatMap (FingerprintBlock.givenOn .client)) ++
        sideRows [title.dst, title.dport, title.src, title.sport]
          (run.flatMap (FingerprintBlock.givenOn .server))

namespace FingerprintRecordReader

open Pattern

private theorem matchHere_address {address after : Bytes} (pieces : Pattern)
    (nonempty : address ≠ [])
    (plain : ∀ letter ∈ address, notSlash letter = true ∧ JavaText.dot letter = true)
    {found : List Bytes × Bytes} (here : matchHere pieces after = some found) :
    matchHere (.run true true 1 none notSlash :: .literal (ascii "/") :: pieces)
        (address ++ (ascii "/" ++ after)) = some (address :: found.1, found.2) := by
  have atSlash := (matchHere_literal_append (ascii "/") after pieces).trans here
  exact matchHere_word notSlash _ nonempty (fun letter member => (plain letter member).1)
    (fun _ atHead => by cases atHead; rfl) atSlash

private theorem matchHere_title (block : FingerprintBlock) :
    matchHere titlePattern (block.title.text ++ block.trail) =
      some ([block.title.src, block.title.sport, block.title.dst, block.title.dport],
        block.trail) := by
  obtain ⟨src, sport, dst, dport⟩ := block.title.named
  have atEnd : matchHere [] block.trail = some ([], block.trail) := rfl
  have atDport := matchHere_word (isDigit 10) _ dport block.title.dportDigits block.trailEnds atEnd
  have atDst := matchHere_address _ dst block.title.dstPlain atDport
  have atArrow := (matchHere_literal_append (ascii " -> ") _ _).trans atDst
  have atSport := matchHere_word (isDigit 10) _ sport block.title.sportDigits
    (fun _ atHead => by cases atHead; rfl) atArrow
  have atSrc := matchHere_address _ src block.title.srcPlain atSport
  have atTitle := (matchHere_literal_append (ascii " ") _ _).trans atSrc
  simp only [FingerprintTitle.text, List.append_assoc]
  exact atTitle

private theorem find_titleText (block : FingerprintBlock) :
    titlePattern.find block.titleText =
      some ([block.title.src, block.title.sport, block.title.dst, block.title.dport],
        block.trail) := by
  have skip : ∀ (head : Byte) (tail : Bytes), head ≠ 32 →
      titlePattern.find (head :: tail) = titlePattern.find tail := by
    intro head tail other
    apply find_cons_of_none
    apply matchHere_literal_of_not_prefix
    intro found
    rcases found with ⟨rest, same⟩
    exact other (List.cons.inj same).1.symm
  have shape : block.titleText = 46 :: 45 :: 91 :: (block.title.text ++ block.trail) := rfl
  rw [shape, skip _ _ (by decide), skip _ _ (by decide), skip _ _ (by decide)]
  exact find_of_matchHere (matchHere_title block)

private theorem find_fieldText (line : FingerprintLine) :
    fieldPattern.find line.text = some ([line.keyText, line.valueText], []) := by
  have atValue : matchHere [.run true true 0 none JavaText.dot] (line.valueText ++ []) =
      some ([line.valueText], []) :=
    matchHere_greedy_unbounded true JavaText.dot [] line.valueText [] line.valuePlain
      (Nat.zero_le _) (fun _ absent => by cases absent) ([], []) rfl
  rw [List.append_nil] at atValue
  have atSeparator := (matchHere_literal_append (ascii " = ") _ _).trans atValue
  have atKey := matchHere_lazy true JavaText.dot _ line.keyText _ line.keyPlain _ atSeparator (by
    intro count inside
    refine matchHere_literal_of_not_prefix _ _ _ fun isPrefix => line.keyEnds count inside ?_
    rw [← List.append_assoc] at isPrefix
    apply List.prefix_of_prefix_length_le isPrefix (List.prefix_append _ _)
    rw [List.length_append]
    omega)
  exact find_of_matchHere ((matchHere_literal_append (ascii "| ") _ _).trans atKey)

def record (title : Bytes) (addresses : List Bytes) (given : List (Bytes × Bytes)) :
    FingerprintTuple :=
  { title, tuple := addresses, fields := fun field => lastValue field.key given }

private theorem lastValue_concat (key : Bytes) (given : List (Bytes × Bytes))
    (pair : Bytes × Bytes) :
    lastValue key (given ++ [pair]) =
      if pair.1 = key then some pair.2 else lastValue key given := by
  rw [lastValue, List.filter_append]
  by_cases same : pair.1 = key
  · rw [if_pos same, List.filter_cons_of_pos (by simpa using same), List.filter_nil,
      List.getLast?_concat]
    rfl
  · rw [if_neg same, List.filter_cons_of_neg (by simpa using same), List.filter_nil,
      List.append_nil, lastValue]

private theorem addField_record (title : Bytes) (addresses : List Bytes)
    (given : List (Bytes × Bytes)) (pair : Bytes × Bytes) :
    (record title addresses given).addField pair.1 pair.2 =
      record title addresses (given ++ [pair]) := by
  simp only [record, FingerprintTuple.addField, lastValue_concat]

private theorem side_key_ne (side : FingerprintSide) (field : FingerprintField) :
    side.key ≠ field.key := by
  cases side <;> cases field <;> decide

private theorem addField_side (title : Bytes) (addresses : List Bytes)
    (given : List (Bytes × Bytes)) (side : FingerprintSide) (value : Bytes) :
    (record title addresses given).addField side.key value = record title addresses given := by
  simp only [record, FingerprintTuple.addField, side_key_ne, if_false]

private theorem lastValue_isSome (key : Bytes) (given : List (Bytes × Bytes)) :
    (lastValue key given).isSome = given.any fun pair => pair.1 = key := by
  rw [lastValue, Option.isSome_map, Bool.eq_iff_iff, List.any_eq_true]
  constructor
  · intro found
    obtain ⟨pair, last⟩ := Option.isSome_iff_exists.mp found
    have member := List.mem_filter.mp (List.mem_of_mem_getLast? last)
    exact ⟨pair, member.1, member.2⟩
  · intro whole
    rcases whole with ⟨pair, member, same⟩
    have inside : pair ∈ given.filter fun pair => pair.1 = key := List.mem_filter.mpr ⟨member, same⟩
    rw [List.getLast?_isSome]
    exact List.ne_nil_of_mem inside

private theorem anyGood_record (title : Bytes) (addresses : List Bytes)
    (given : List (Bytes × Bytes)) :
    (record title addresses given).anyGood = given.any fun pair => recognized pair.1 := by
  simp only [FingerprintTuple.anyGood, record, lastValue_isSome, recognized]
  rw [Bool.eq_iff_iff]
  simp only [List.any_eq_true]
  constructor
  · intro found
    rcases found with ⟨field, inAll, pair, member, same⟩
    exact ⟨pair, member, field, inAll, same⟩
  · intro found
    rcases found with ⟨pair, member, field, inAll, same⟩
    exact ⟨field, inAll, pair, member, same⟩

def pairOf (title : FingerprintTitle) (client server : List (Bytes × Bytes)) :
    FingerprintTuple × FingerprintTuple :=
  (record title.text [title.src, title.sport, title.dst, title.dport] client,
    record title.text [title.dst, title.dport, title.src, title.sport] server)

def runPair (run : List FingerprintBlock) : Option (FingerprintTuple × FingerprintTuple) :=
  run.head?.map fun first =>
    pairOf first.title (run.flatMap (FingerprintBlock.givenOn .client))
      (run.flatMap (FingerprintBlock.givenOn .server))

private theorem runPair_single (block : FingerprintBlock) :
    runPair [block] =
      some (pairOf block.title (block.givenOn .client) (block.givenOn .server)) := by
  simp only [runPair, List.head?_cons, Option.map_some, List.flatMap_singleton]

private theorem runPair_concat (first : FingerprintBlock) (rest : List FingerprintBlock)
    (block : FingerprintBlock) :
    runPair (first :: rest ++ [block]) =
      some (pairOf first.title
        ((first :: rest).flatMap (FingerprintBlock.givenOn .client) ++ block.givenOn .client)
        ((first :: rest).flatMap (FingerprintBlock.givenOn .server) ++ block.givenOn .server)) := by
  rw [runPair, List.cons_append, List.head?_cons, Option.map_some, ← List.cons_append,
    List.flatMap_append, List.flatMap_append, List.flatMap_singleton, List.flatMap_singleton]

private theorem getTuple_side (title : Bytes) (addresses : List Bytes)
    (given : List (Bytes × Bytes)) :
    ([record title addresses given].filter FingerprintTuple.anyGood).map FingerprintTuple.getTuple =
      sideRows addresses given := by
  rw [List.filter_cons, anyGood_record, sideRows]
  split <;> rfl

theorem flush_runPair (run : List FingerprintBlock) :
    (flush (runPair run)).map FingerprintTuple.getTuple = runRows run := by
  cases run with
  | nil => rfl
  | cons first rest =>
      rw [runPair, List.head?_cons, Option.map_some, flush, pairOf, ← List.singleton_append,
        List.filter_append, List.map_append, getTuple_side, getTuple_side]
      rfl

/-! ### Scanning the lines -/

section Scanning

variable (scan : Scan)

private theorem scanLine_ignored {line : Bytes} (ignored : Ignored line) :
    scanLine scan line = .ok scan := by
  simp only [scanLine, ignored.noTitle, ignored.noField, Bool.false_eq_true, if_false]

variable {scan} {title : FingerprintTitle} {client server : List (Bytes × Bytes)}

private theorem scanLine_field {line : FingerprintLine} {mode : Bool}
    {pair : FingerprintTuple × FingerprintTuple} (pending : scan.pending = some pair)
    (modeIs : (if line.name = ascii "server" then false
      else if line.name = ascii "client" then true else scan.clientMode) = mode) :
    scanLine scan line.text =
      .ok { scan with
        clientMode := mode
        pending := some
          (if mode then (pair.1.addField line.given.1 line.given.2, pair.2)
          else (pair.1, pair.2.addField line.given.1 line.given.2)) } := by
  change fieldLine line.text scan = _
  rw [fieldLine, find_fieldText]
  simp only [pending]
  rw [← modeIs]
  rfl

private theorem scanLine_side {side : FingerprintSide} {line : FingerprintLine}
    (named : line.name = side.key) (pending : scan.pending = some (pairOf title client server)) :
    scanLine scan line.text = .ok { scan with clientMode := decide (side = .client) } := by
  have given : line.given.1 = side.key := named
  have modeIs : (if line.name = ascii "server" then false
      else if line.name = ascii "client" then true else scan.clientMode) =
        decide (side = .client) := by
    rw [named]
    cases side <;> rfl
  rw [scanLine_field pending modeIs, given]
  simp only [pairOf, addField_side, ite_self]
  rw [pending, pairOf]

private theorem scanLine_given {side : FingerprintSide} {line : FingerprintLine}
    (unnamed : ∀ other : FingerprintSide, line.name ≠ other.key)
    (mode : scan.clientMode = decide (side = .client))
    (pending : scan.pending = some (pairOf title client server)) :
    scanLine scan line.text =
      .ok { scan with
        pending := some (pairOf title
          (client ++ if side = .client then [line.given] else [])
          (server ++ if side = .server then [line.given] else [])) } := by
  have notServer : line.name ≠ ascii "server" := unnamed .server
  have notClient : line.name ≠ ascii "client" := unnamed .client
  have modeIs : (if line.name = ascii "server" then false
      else if line.name = ascii "client" then true else scan.clientMode) = scan.clientMode := by
    rw [if_neg notServer, if_neg notClient]
  rw [scanLine_field pending modeIs, mode]
  simp only [pairOf, addField_record]
  cases side with
  | client => simp
  | server => simp

private theorem scan_ignored {lines : List Bytes} (ignored : ∀ line ∈ lines, Ignored line)
    (scan : Scan) : lines.foldlM scanLine scan = .ok scan := by
  induction lines with
  | nil => rfl
  | cons line lines ih =>
      obtain ⟨here, later⟩ := List.forall_mem_cons.mp ignored
      rw [List.foldlM_cons, scanLine_ignored scan here]
      exact ih later

private theorem scan_fields (scan : Scan) (client server : List (Bytes × Bytes))
    {side : FingerprintSide} {fields : List FingerprintLine}
    (unnamed : ∀ field ∈ fields, ∀ other : FingerprintSide, field.name ≠ other.key)
    (mode : scan.clientMode = decide (side = .client))
    (pending : scan.pending = some (pairOf title client server)) :
    (fields.map FingerprintLine.text).foldlM scanLine scan =
      .ok { scan with
        pending := some (pairOf title
          (client ++ if side = .client then fields.map FingerprintLine.given else [])
          (server ++ if side = .server then fields.map FingerprintLine.given else [])) } := by
  induction fields generalizing scan client server with
  | nil =>
      rw [List.map_nil, List.map_nil, ite_self, ite_self, List.append_nil, List.append_nil,
        ← pending]
      rfl
  | cons field fields ih =>
      obtain ⟨here, later⟩ := List.forall_mem_cons.mp unnamed
      rw [List.map_cons, List.foldlM_cons, scanLine_given here mode pending]
      have rest := ih
        { scan with
          pending := some (pairOf title
            (client ++ if side = .client then [field.given] else [])
            (server ++ if side = .server then [field.given] else [])) } _ _ later mode rfl
      refine rest.trans ?_
      cases side with
      | client => simp
      | server => simp

private theorem scan_below (block : FingerprintBlock)
    (pending : scan.pending = some (pairOf title client server)) :
    (block.sideLine.text :: (block.fields.map FingerprintLine.text ++ block.closing)).foldlM
        scanLine scan =
      .ok { scan with
        clientMode := decide (block.side = .client)
        pending := some (pairOf title (client ++ block.givenOn .client)
          (server ++ block.givenOn .server)) } := by
  have fields : (block.fields.map FingerprintLine.text).foldlM scanLine
      { scan with clientMode := decide (block.side = .client) } = _ :=
    scan_fields _ client server block.fieldsNamed rfl pending
  rw [List.foldlM_cons, scanLine_side block.sideNamed pending]
  change (block.fields.map FingerprintLine.text ++ block.closing).foldlM scanLine _ = _
  rw [List.foldlM_append, fields]
  exact scan_ignored block.closingIgnored _

private theorem scanLine_title_same (block : FingerprintBlock)
    (pending : scan.pending = some (pairOf title client server))
    (same : title.text = block.title.text) : scanLine scan block.titleText = .ok scan := by
  change titleLine block.titleText scan = _
  rw [titleLine, find_titleText]
  have found : (scan.pending.any fun pair => pair.1.title = block.title.text) = true := by
    rw [pending]
    exact decide_eq_true same
  exact if_pos found

private theorem scanLine_title_new (block : FingerprintBlock)
    (other : ∀ pair ∈ scan.pending, pair.1.title ≠ block.title.text) :
    scanLine scan block.titleText =
      .ok { scan with
        fingerprintArray := scan.fingerprintArray ++ flush scan.pending
        pending := some (pairOf block.title [] []) } := by
  change titleLine block.titleText scan = _
  rw [titleLine, find_titleText]
  have missed : ¬ (scan.pending.any fun pair => pair.1.title = block.title.text) = true := by
    cases pending : scan.pending with
    | none => exact Bool.false_ne_true
    | some pair => exact fun same => other pair pending (of_decide_eq_true same)
  exact if_neg missed

end Scanning

/-- The array holds the records of the complete runs, and the pair in the local
variables is that of the open one. -/
structure Represents (collected : Runs.Collected FingerprintBlock) (scan : Scan) : Prop where
  array : scan.fingerprintArray = collected.complete.flatMap fun run => flush (runPair run)
  pending : scan.pending = runPair collected.pending

theorem scan_block {collected : Runs.Collected FingerprintBlock} {scan : Scan}
    (represents : Represents collected scan) (block : FingerprintBlock) :
    ∃ scan', block.lines.foldlM scanLine scan = .ok scan' ∧
      Represents (Runs.push (fun block => block.title.text) collected block) scan' := by
  rcases represents with ⟨array, pending⟩
  rcases collected with ⟨complete, run⟩
  have lines : ∀ {titled : Scan} {title : FingerprintTitle} {client server : List (Bytes × Bytes)},
      scanLine scan block.titleText = .ok titled →
        titled.pending = some (pairOf title client server) →
          block.lines.foldlM scanLine scan =
            .ok { titled with
              clientMode := decide (block.side = .client)
              pending := some (pairOf title (client ++ block.givenOn .client)
                (server ++ block.givenOn .server)) } := by
    intro titled title client server atTitle titledPending
    rw [FingerprintBlock.lines, List.foldlM_cons, atTitle]
    exact scan_below block titledPending
  cases run with
  | nil =>
      have nothing : scan.pending = none := pending
      have atTitle := scanLine_title_new block
        (show ∀ pair ∈ scan.pending, pair.1.title ≠ block.title.text by simp [nothing])
      refine ⟨_, lines atTitle rfl, ?_⟩
      rw [Runs.push_nil]
      refine ⟨?_, (runPair_single block).symm⟩
      change scan.fingerprintArray ++ flush scan.pending = _
      rw [nothing, array]
      exact List.append_nil _
  | cons first rest =>
      by_cases same : first.title.text = block.title.text
      · refine ⟨_, lines (scanLine_title_same block pending same) pending, ?_⟩
        rw [Runs.push_same (fun block : FingerprintBlock => block.title.text) same]
        exact ⟨array, (runPair_concat first rest block).symm⟩
      · have atTitle := scanLine_title_new block
          (show ∀ pair ∈ scan.pending, pair.1.title ≠ block.title.text by
            rw [pending]
            intro pair member
            cases member
            exact same)
        refine ⟨_, lines atTitle rfl, ?_⟩
        rw [Runs.push_other (fun block : FingerprintBlock => block.title.text) same]
        refine ⟨?_, (runPair_single block).symm⟩
        rw [List.flatMap_append, List.flatMap_singleton, ← array]
        exact congrArg (fun pair => scan.fingerprintArray ++ flush pair) pending

private theorem scan_blocks (blocks : List FingerprintBlock)
    {collected : Runs.Collected FingerprintBlock} {scan : Scan}
    (represents : Represents collected scan) :
    ∃ scan', (blocks.flatMap FingerprintBlock.lines).foldlM scanLine scan = .ok scan' ∧
      Represents (blocks.foldl (Runs.push fun block => block.title.text) collected) scan' := by
  induction blocks generalizing collected scan with
  | nil => exact ⟨scan, rfl, represents⟩
  | cons block blocks ih =>
      obtain ⟨middle, scanned, representsMiddle⟩ := scan_block represents block
      obtain ⟨scan', rest, representsLast⟩ := ih representsMiddle
      refine ⟨scan', ?_, representsLast⟩
      rw [List.flatMap_cons, List.foldlM_append, scanned]
      exact rest

theorem scan_transcript (transcript : FingerprintTranscript) :
    ∃ scan, transcript.lines.foldlM scanLine ⟨none, true, []⟩ = .ok scan ∧
      scan.fingerprintArray =
        transcript.runs.dropLast.flatMap fun run => flush (runPair run) := by
  have start : Represents ⟨[], []⟩ ⟨none, true, []⟩ := ⟨rfl, rfl⟩
  obtain ⟨scan, scanned, represents⟩ := scan_blocks transcript.blocks start
  rw [Runs.foldl_push] at represents
  refine ⟨scan, ?_, represents.array⟩
  rw [FingerprintTranscript.lines, List.foldlM_append, scan_ignored transcript.bannerIgnored]
  exact scanned

private theorem lines_plain (transcript : FingerprintTranscript) :
    ∀ line ∈ transcript.lines, ∀ letter ∈ line, JavaText.dot letter = true := by
  have word : ∀ text : Bytes, text.all JavaText.dot = true →
      ∀ letter ∈ text, JavaText.dot letter = true := fun _ => List.all_eq_true.mp
  have field : ∀ line : FingerprintLine, ∀ letter ∈ line.text, JavaText.dot letter = true := by
    intro line
    simp only [FingerprintLine.text, List.forall_mem_append]
    exact ⟨word _ rfl, line.keyPlain, word _ rfl, line.valuePlain⟩
  have title : ∀ block : FingerprintBlock, ∀ letter ∈ block.titleText,
      JavaText.dot letter = true := by
    intro block
    simp only [FingerprintBlock.titleText, FingerprintTitle.text, List.forall_mem_append]
    exact ⟨word _ rfl, ⟨word _ rfl, fun _ member => (block.title.srcPlain _ member).2, word _ rfl,
      fun _ member => JavaText.dot_of_digit (block.title.sportDigits _ member), word _ rfl,
      fun _ member => (block.title.dstPlain _ member).2, word _ rfl,
      fun _ member => JavaText.dot_of_digit (block.title.dportDigits _ member)⟩, block.trailPlain⟩
  intro line member
  rcases List.mem_append.mp member with inBanner | inBlocks
  · exact (transcript.bannerIgnored line inBanner).plain
  · obtain ⟨block, -, inBlock⟩ := List.mem_flatMap.mp inBlocks
    rcases List.mem_cons.mp inBlock with rfl | below
    · exact title block
    rcases List.mem_cons.mp below with rfl | behind
    · exact field _
    rcases List.mem_append.mp behind with inFields | inClosing
    · obtain ⟨other, -, rfl⟩ := List.mem_map.mp inFields
      exact field other
    · exact (block.closingIgnored line inClosing).plain

private theorem readLoop_lines {lines : List Bytes}
    (plain : ∀ line ∈ lines, ∀ letter ∈ line, JavaText.dot letter = true) {scan scan' : Scan}
    (scanned : lines.foldlM scanLine scan = .ok scan') (fuel : Nat)
    (enough : lines.length ≤ fuel) :
    readLoop fuel (lines.flatMap (· ++ [lineFeed])) scan = (none, scan', []) := by
  induction lines generalizing scan fuel with
  | nil =>
      cases scanned
      cases fuel <;> rfl
  | cons line lines ih =>
      obtain ⟨here, later⟩ := List.forall_mem_cons.mp plain
      cases fuel with
      | zero => exact absurd enough (Nat.not_succ_le_zero _)
      | succ fuel =>
          rw [List.foldlM_cons] at scanned
          obtain ⟨middle, atLine, rest⟩ := bind_eq_ok scanned
          have read := JavaText.readLine_of_dots here (lines.flatMap (· ++ [lineFeed]))
          rw [List.flatMap_cons, List.append_assoc, List.singleton_append, readLoop]
          simp only [read, atLine]
          exact ih later rest fuel (Nat.le_of_succ_le_succ enough)

private theorem yields_array (fingerprintArray rest : List FingerprintTuple) :
    Yields nextKeyValue ⟨[], fingerprintArray, some rest⟩
      (rest.map fun fingerprint => ⟨0, fingerprint.getTuple⟩) .returnedFalse
      ⟨[], fingerprintArray, some []⟩ := by
  induction rest with
  | nil => exact .stop rfl
  | cons fingerprint rest ih => exact .item rfl ih

private theorem length_le_text (lines : List Bytes) :
    lines.length ≤ (lines.flatMap (· ++ [lineFeed])).length := by
  induction lines with
  | nil => exact Nat.le_refl 0
  | cons line lines ih =>
      simp only [List.flatMap_cons, List.length_append, List.length_cons, List.length_nil]
      omega

theorem yields_transcript (transcript : FingerprintTranscript) :
    ∃ final, Yields nextKeyValue (initializeReader transcript.text)
      ((transcript.runs.dropLast.flatMap runRows).map fun row => ⟨0, row⟩) .returnedFalse
      final := by
  obtain ⟨scan, scanned, array⟩ := scan_transcript transcript
  have loop : readLoop transcript.text.length transcript.text ⟨none, true, []⟩ = (none, scan, []) :=
    readLoop_lines (lines_plain transcript) scanned _ (length_le_text transcript.lines)
  have first : nextKeyValue (initializeReader transcript.text) =
      nextKeyValue ⟨[], scan.fingerprintArray, some scan.fingerprintArray⟩ := by
    simp only [nextKeyValue, initializeReader, loop]
    rfl
  have rows : (transcript.runs.dropLast.flatMap runRows).map (fun row => (⟨0, row⟩ : Keyed _)) =
      scan.fingerprintArray.map fun fingerprint => ⟨0, fingerprint.getTuple⟩ := by
    rw [array, List.map_flatMap, List.map_flatMap]
    apply List.flatMap_congr
    intro run _
    rw [← flush_runPair, List.map_map]
    rfl
  rw [rows]
  exact ⟨_, (yields_array scan.fingerprintArray scan.fingerprintArray).congr_state first⟩

private theorem sideRows_eq_nil_iff (addresses : List Bytes) (given : List (Bytes × Bytes)) :
    sideRows addresses given = [] ↔ ∀ pair ∈ given, recognized pair.1 = false := by
  unfold sideRows
  constructor
  · intro none pair member
    split at none
    · cases none
    · rename_i missing
      rw [Bool.not_eq_true, List.any_eq_false] at missing
      exact Bool.eq_false_iff.mpr (missing pair member)
  · intro unknown
    rw [if_neg]
    rw [Bool.not_eq_true, List.any_eq_false]
    exact fun pair member => Bool.eq_false_iff.mp (unknown pair member)

private theorem forall_givenOn_iff (side : FingerprintSide) (run : List FingerprintBlock) :
    (∀ pair ∈ run.flatMap (FingerprintBlock.givenOn side), recognized pair.1 = false) ↔
      ∀ block ∈ run, block.side = side → ∀ field ∈ block.fields,
        recognized field.name = false := by
  constructor
  · intro unknown block member isSide field inFields
    refine unknown field.given (List.mem_flatMap.mpr ⟨block, member, ?_⟩)
    rw [FingerprintBlock.givenOn, if_pos isSide]
    exact List.mem_map_of_mem inFields
  · intro unknown pair member
    obtain ⟨block, inRun, inGiven⟩ := List.mem_flatMap.mp member
    unfold FingerprintBlock.givenOn at inGiven
    split at inGiven
    · rename_i isSide
      obtain ⟨field, inFields, rfl⟩ := List.mem_map.mp inGiven
      exact unknown block inRun isSide field inFields
    · cases inGiven

theorem runRows_eq_nil_iff (run : List FingerprintBlock) :
    runRows run = [] ↔
      ∀ block ∈ run, ∀ field ∈ block.fields, recognized field.name = false := by
  cases run with
  | nil => exact iff_of_true rfl fun _ absent => absurd absent List.not_mem_nil
  | cons first rest =>
      rw [runRows, List.append_eq_nil_iff, sideRows_eq_nil_iff, sideRows_eq_nil_iff,
        forall_givenOn_iff, forall_givenOn_iff]
      constructor
      · intro found block member
        rcases found with ⟨onClient, onServer⟩
        cases side : block.side with
        | client => exact onClient block member side
        | server => exact onServer block member side
      · intro unknown
        exact ⟨fun block member _ => unknown block member, fun block member _ =>
          unknown block member⟩

/-- The tuples of every maximal run of blocks with the same title, in order. -/
def ReturnsRuns (transcript : FingerprintTranscript) : Prop :=
  ∃ final, Yields nextKeyValue (initializeReader transcript.text)
    ((transcript.runs.flatMap runRows).map fun row => ⟨0, row⟩) .returnedFalse final

private theorem returnsRuns_iff_last (transcript : FingerprintTranscript) :
    ReturnsRuns transcript ↔ ∀ run ∈ transcript.runs.getLast?, runRows run = [] := by
  obtain ⟨final, run⟩ := yields_transcript transcript
  rcases List.eq_nil_or_concat transcript.runs with nothing | ⟨init, last, shape⟩
  · rw [nothing] at run
    rw [ReturnsRuns, nothing]
    exact iff_of_true ⟨final, run⟩ fun _ absent => by cases absent
  · rw [List.concat_eq_append] at shape
    rw [ReturnsRuns, shape, List.getLast?_concat]
    rw [shape, List.dropLast_concat] at run
    rw [List.flatMap_append, List.flatMap_singleton, List.map_append]
    constructor
    · intro found other isLast
      rcases found with ⟨final', run'⟩
      cases isLast
      have same := (run'.unique run).1
      exact List.map_eq_nil_iff.mp (List.append_right_eq_self.mp same)
    · intro empty
      rw [empty last rfl, List.map_nil, List.append_nil]
      exact ⟨final, run⟩

/-- The runs come out complete exactly when no field that counts is given in
the last one. -/
theorem returnsRuns_iff (transcript : FingerprintTranscript) :
    ReturnsRuns transcript ↔
      ∀ run ∈ transcript.runs.getLast?, ∀ block ∈ run, ∀ field ∈ block.fields,
        recognized field.name = false := by
  rw [returnsRuns_iff_last]
  exact forall₂_congr fun run _ => runRows_eq_nil_iff run

private theorem keyEnds_of_not_mem {keyText : Bytes} (noEquals : 61 ∉ keyText) :
    ∀ count < keyText.length, ¬ ascii " = " <+: keyText.drop count ++ ascii " = " := by
  intro count inside
  -- The second letter would be the equals sign.
  obtain ⟨head, tail, shape⟩ := List.exists_cons_of_ne_nil
    (List.ne_nil_of_length_pos (show 0 < (keyText.drop count).length by
      rw [List.length_drop]; omega))
  rw [shape]
  intro found
  rcases found with ⟨rest, same⟩
  have behind := (List.cons.inj same).2
  cases tail with
  | nil => cases behind
  | cons second tail =>
      have inKey : second ∈ keyText := List.mem_of_mem_drop (i := count) (shape ▸ by simp)
      have equals : 61 = second := (List.cons.inj behind).1
      exact noEquals (equals ▸ inKey)

/-- `| key = value` with plain words on both sides. -/
def plainLine (keyText valueText : Bytes) (noEquals : 61 ∉ keyText)
    (keyLetters : keyText.all JavaText.dot = true)
    (valueLetters : valueText.all JavaText.dot = true) : FingerprintLine :=
  { keyText
    valueText
    keyPlain := List.all_eq_true.mp keyLetters
    keyEnds := keyEnds_of_not_mem noEquals
    valuePlain := List.all_eq_true.mp valueLetters }

def serverBlock : FingerprintBlock :=
  { title :=
      { src := ascii "10.0.0.1"
        sport := ascii "58121"
        dst := ascii "10.0.0.2"
        dport := ascii "80"
        named := ⟨List.cons_ne_nil _ _, List.cons_ne_nil _ _, List.cons_ne_nil _ _,
          List.cons_ne_nil _ _⟩
        srcPlain := both_of_all rfl
        sportDigits := List.all_eq_true.mp rfl
        dstPlain := both_of_all rfl
        dportDigits := List.all_eq_true.mp rfl }
    trail := ascii " (syn+ack) ]-"
    trailPlain := List.all_eq_true.mp rfl
    trailEnds := fun _ atHead => by cases atHead; rfl
    side := .server
    sideLine := plainLine (ascii "server  ") (ascii "10.0.0.2/80") (by decide) rfl rfl
    sideNamed := rfl
    fields := [plainLine (ascii "os      ") (ascii "Linux 3.x") (by decide) rfl rfl]
    fieldsNamed := List.forall_mem_singleton.mpr fun side => by cases side <;> decide
    closing := [ascii "|", ascii "----"]
    closingIgnored := List.forall_mem_cons.mpr ⟨⟨List.all_eq_true.mp rfl, rfl, rfl⟩,
      List.forall_mem_singleton.mpr ⟨List.all_eq_true.mp rfl, rfl, rfl⟩⟩ }

theorem single_block_lost : ¬ ReturnsRuns ⟨[], fun _ absent => absurd absent List.not_mem_nil,
    [serverBlock]⟩ := by
  intro returned
  have nothing := (returnsRuns_iff_last _).mp returned [serverBlock] rfl
  have unknown := (runRows_eq_nil_iff _).mp nothing serverBlock List.mem_cons_self _
    List.mem_cons_self
  exact absurd unknown (by decide)

end FingerprintRecordReader

end Packetpig
