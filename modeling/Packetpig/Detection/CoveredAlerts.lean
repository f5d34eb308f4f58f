/-
Which alerts the reader gives back as they were.

The pattern takes one letter for the priority, ends an address at the first
colon and the message at the first ` [**]`, and has no dash in a protocol name.
-/

import Packetpig.Detection.SnortAlerts

namespace Packetpig

open Text

/-! ### Matching an alert that is covered -/

namespace SnortRecordReader

open Pattern

theorem ipToString_letters {addr : Word} {letter : Byte}
    (member : letter ∈ PacketTuple.ipToString addr) : letter = 46 ∨ isDigit 10 letter = true := by
  rcases mem_intercalate member with dot | ⟨piece, inPieces, inPiece⟩
  · exact .inl (List.mem_singleton.mp dot)
  · refine .inr ?_
    simp only [List.mem_cons, List.not_mem_nil, or_false] at inPieces
    rcases inPieces with rfl | rfl | rfl | rfl <;> exact isDigit_of_mem_decimal inPiece

private theorem notColon_of_digit {letter : Byte} (digit : isDigit 10 letter = true) :
    notColon letter = true ∧ notSpace letter = true := by
  constructor
  · apply decide_eq_true
    intro same
    subst same
    cases digit
  · apply decide_eq_true
    intro same
    subst same
    cases digit

private theorem ipToString_plain (addr : Word) :
    ∀ letter ∈ PacketTuple.ipToString addr, notColon letter = true ∧ notSpace letter = true := by
  intro letter member
  rcases ipToString_letters member with rfl | digit
  · exact ⟨rfl, rfl⟩
  · exact notColon_of_digit digit

private theorem ipToString_ne_nil (addr : Word) : PacketTuple.ipToString addr ≠ [] := by
  intro nothing
  have first : decimal (addr.toNat / 2 ^ 24 % 256) = [] := by
    rw [PacketTuple.ipToString, List.intercalate_cons_cons] at nothing
    exact (List.append_eq_nil_iff.mp (List.append_eq_nil_iff.mp nothing).1).1
  exact decimal_ne_nil _ first

section Address

variable (pieces : Pattern) {after : Bytes} {found : List Bytes × Bytes}

private theorem matchHere_portText (port : Option (BitVec 16))
    (stops : ∀ letter ∈ after.head?, letter = space) (here : matchHere pieces after = some found) :
    matchHere (.run false true 0 none (· = colon) :: .run true true 0 none notSpace :: pieces)
        (SnortEndpoint.portText port ++ after) =
      some ((SnortEndpoint.portText port).tail :: found.1, found.2) := by
  have stopsSpace : ∀ letter ∈ after.head?, notSpace letter = false := by
    intro letter atHead
    rw [stops letter atHead]
    rfl
  cases port with
  | none =>
      have atNumber : matchHere (.run true true 0 none notSpace :: pieces) after =
          some ([] :: found.1, found.2) :=
        matchHere_greedy_unbounded true notSpace pieces [] after (fun _ absent => by cases absent)
          (Nat.le_refl 0) stopsSpace found here
      refine matchHere_greedy_unbounded false (· = colon) _ [] after
        (fun _ absent => by cases absent) (Nat.le_refl 0) ?_ _ atNumber
      intro letter atHead
      rw [stops letter atHead]
      rfl
  | some port =>
      have plain : ∀ letter ∈ decimal port.toNat, notColon letter = true ∧ notSpace letter = true :=
        fun _ member => notColon_of_digit (isDigit_of_mem_decimal member)
      have atNumber : matchHere (.run true true 0 none notSpace :: pieces)
          (decimal port.toNat ++ after) = some (decimal port.toNat :: found.1, found.2) :=
        matchHere_greedy_unbounded true notSpace pieces _ after (fun _ member => (plain _ member).2)
          (Nat.zero_le _) stopsSpace found here
      refine matchHere_greedy_unbounded false (· = colon) _ [colon] _
        (List.forall_mem_singleton.mpr rfl) (Nat.zero_le _) ?_ _ atNumber
      obtain ⟨first, rest, same⟩ := List.exists_cons_of_ne_nil (decimal_ne_nil port.toNat)
      intro letter atHead
      rw [same] at atHead
      cases atHead
      have first := (plain _ (same ▸ List.mem_cons_self)).1
      simpa [notColon] using first

private theorem matchHere_address (addr : Word) (port : Option (BitVec 16))
    (stops : ∀ letter ∈ after.head?, letter = space) (here : matchHere pieces after = some found)
    (later : ∀ count, 0 < count → count ≤ (after.takeWhile notColon).length →
      matchHere (.run false true 0 none (· = colon) :: .run true true 0 none notSpace :: pieces)
        (after.drop count) = none) :
    matchHere (addressPattern ++ pieces)
        (PacketTuple.ipToString addr ++ (SnortEndpoint.portText port ++ after)) =
      some (PacketTuple.ipToString addr :: (SnortEndpoint.portText port).tail :: found.1,
        found.2) := by
  have plain : ∀ letter ∈ PacketTuple.ipToString addr, notColon letter = true :=
    fun letter member => (ipToString_plain addr letter member).1
  have enough : 1 ≤ (PacketTuple.ipToString addr).length :=
    List.length_pos_of_ne_nil (ipToString_ne_nil addr)
  have atPort := matchHere_portText pieces port stops here
  refine matchHere_greedy true notColon _ _ _ plain enough (fun _ absent => by cases absent) _
    atPort ?_
  intro count longer within
  rw [List.takeWhile_append_of_pos plain, List.length_append] at within
  cases port with
  | some port =>
      -- The colon ends the run, so nothing longer is tried.
      have nothing : (SnortEndpoint.portText (some port) ++ after).takeWhile notColon = [] :=
        List.takeWhile_cons_of_neg (by decide)
      rw [nothing, List.length_nil] at within
      omega
  | none =>
      rw [SnortEndpoint.portText, List.nil_append] at within ⊢
      rw [List.drop_append, List.drop_eq_nil_of_le (by omega), List.nil_append]
      exact later _ (by omega) (by omega)

end Address

private theorem no_arrow_behind (addr : Word) (port : Option (BitVec 16)) {count : Nat}
    (positive : 0 < count) :
    ¬ ascii " -> " <:+: (ascii " -> " ++ (PacketTuple.ipToString addr ++
      SnortEndpoint.portText port)).drop count := by
  intro inside
  have twice := inside.sublist.count_le space
  have noBlanks : (PacketTuple.ipToString addr ++ SnortEndpoint.portText port).count space = 0 := by
    rw [List.count_eq_zero, List.mem_append]
    intro either
    rcases either with inAddress | inPort
    · cases (ipToString_plain addr space inAddress).2
    · cases port with
      | none => cases inPort
      | some port =>
          rcases List.mem_cons.mp inPort with same | inNumber
          · cases same
          · cases (notColon_of_digit (isDigit_of_mem_decimal inNumber)).2
  obtain ⟨more, rfl⟩ := Nat.exists_eq_add_one.mpr positive
  have fewer : ((ascii "-> " ++ (PacketTuple.ipToString addr ++
      SnortEndpoint.portText port)).drop more).count space ≤ 1 := by
    refine ((List.drop_suffix more _).sublist.count_le space).trans ?_
    rw [List.count_append, noBlanks]
    decide
  exact absurd (twice.trans fewer) (by decide)

private theorem matchHere_endpoints (src dst : Word) (sport dport : Option (BitVec 16)) :
    matchHere (addressPattern ++ (.literal (ascii " -> ") :: addressPattern))
        (PacketTuple.ipToString src ++ (SnortEndpoint.portText sport ++ (ascii " -> " ++
          (PacketTuple.ipToString dst ++ SnortEndpoint.portText dport)))) =
      some ([PacketTuple.ipToString src, (SnortEndpoint.portText sport).tail,
        PacketTuple.ipToString dst, (SnortEndpoint.portText dport).tail], []) := by
  have atDst : matchHere addressPattern
      (PacketTuple.ipToString dst ++ SnortEndpoint.portText dport) =
        some ([PacketTuple.ipToString dst, (SnortEndpoint.portText dport).tail], []) := by
    have read : matchHere (addressPattern ++ []) (PacketTuple.ipToString dst ++
        (SnortEndpoint.portText dport ++ [])) = _ :=
      matchHere_address [] dst dport (fun _ absent => by cases absent) rfl
        fun count positive within => absurd within (Nat.not_le_of_lt positive)
    rwa [List.append_nil, List.append_nil] at read
  have atArrow : matchHere (.literal (ascii " -> ") :: addressPattern)
      (ascii " -> " ++ (PacketTuple.ipToString dst ++ SnortEndpoint.portText dport)) = _ :=
    (matchHere_literal_append _ _ _).trans atDst
  refine matchHere_address _ src sport (fun _ atHead => ?_) atArrow ?_
  · cases atHead
    rfl
  · intro count positive _
    cases matched : matchHere _ _ with
    | none => rfl
    | some found =>
        have member : Piece.literal (ascii " -> ") ∈
            (.run false true 0 none (· = colon) :: .run true true 0 none notSpace ::
              .literal (ascii " -> ") :: addressPattern : Pattern) := by simp
        exact absurd (infix_of_matchHere _ _ member _ _ matched)
          (no_arrow_behind dst dport positive)

section Parts

variable (pieces : Pattern) {after : Bytes} {found : List Bytes × Bytes}

private theorem matchHere_proto {proto : Bytes} (nonempty : proto ≠ [])
    (letters : ∀ letter ∈ proto, wordOrPlus letter = true)
    (here : matchHere pieces after = some found) :
    matchHere (protoPattern ++ pieces) (ascii "\x7b" ++ (proto ++ (ascii "\x7d " ++ after))) =
      some (proto :: found.1, found.2) := by
  have atEnd : matchHere (.literal (ascii "\x7d ") :: pieces) (ascii "\x7d " ++ after) =
      some found := (matchHere_literal_append _ _ _).trans here
  refine (matchHere_literal_append _ _ _).trans ?_
  exact matchHere_word wordOrPlus _ nonempty letters (fun _ atHead => by cases atHead; rfl) atEnd

private theorem decimal_digit {priority : Nat} (small : priority ≤ 9) :
    (decimal priority).length = 1 := by
  unfold decimal
  split
  · rfl
  · rename_i nonzero
    rw [Nat.digits_of_lt 10 priority nonzero (by omega)]
    rfl

private theorem matchHere_priority {priority : Nat} (small : priority ≤ 9)
    (here : matchHere pieces after = some found) :
    matchHere (priorityPattern ++ pieces)
        (ascii "[Priority: " ++ (decimal priority ++ (ascii "] " ++ after))) =
      some (decimal priority :: found.1, found.2) := by
  have atEnd : matchHere (.literal (ascii "] ") :: pieces) (ascii "] " ++ after) =
      some found := (matchHere_literal_append _ _ _).trans here
  have one := decimal_digit small
  refine (matchHere_literal_append _ _ _).trans ?_
  refine matchHere_greedy_stop true digitOrPlus _ (decimal priority) _ (fun letter member => ?_)
    (by omega) (fun bound isBound => ?_) (fun letter atHead => ?_) found atEnd
  · rw [digitOrPlus, isDigit_of_mem_decimal member]
    rfl
  · cases isBound
    omega
  · cases atHead
    rfl

private theorem matchHere_sig (gid sid rev : Nat) (here : matchHere pieces after = some found) :
    matchHere (sigPattern ++ pieces)
        (ascii "[" ++ (decimal gid ++ (ascii ":" ++ (decimal sid ++ (ascii ":" ++
          (decimal rev ++ (ascii "] " ++ after))))))) =
      some (decimal gid :: decimal sid :: decimal rev :: found.1, found.2) := by
  have atEnd : matchHere (.literal (ascii "] ") :: pieces) (ascii "] " ++ after) =
      some found := (matchHere_literal_append _ _ _).trans here
  have atRev := matchHere_word (isDigit 10) _ (decimal_ne_nil rev) (fun _ => isDigit_of_mem_decimal)
    (fun _ atHead => by cases atHead; rfl) atEnd
  have atColon := (matchHere_literal_append (ascii ":") _ _).trans atRev
  have atSid := matchHere_word (isDigit 10) _ (decimal_ne_nil sid) (fun _ => isDigit_of_mem_decimal)
    (fun _ atHead => by cases atHead; rfl) atColon
  have atColon' := (matchHere_literal_append (ascii ":") _ _).trans atSid
  have atGid := matchHere_word (isDigit 10) _ (decimal_ne_nil gid) (fun _ => isDigit_of_mem_decimal)
    (fun _ atHead => by cases atHead; rfl) atColon'
  exact (matchHere_literal_append (ascii "[") _ _).trans atGid

private theorem matchHere_ts {ts : Bytes} (nonempty : ts ≠ [])
    (plain : ∀ letter ∈ ts, notSpace letter = true) (here : matchHere pieces after = some found) :
    matchHere (tsPattern ++ pieces)
        (ts ++ (ascii "  " ++ (ascii "[**]" ++ (ascii " " ++ after)))) =
      some (ts :: found.1, found.2) := by
  have atBlank : matchHere (.literal (ascii " ") :: pieces) (ascii " " ++ after) = some found :=
    (matchHere_literal_append _ _ _).trans here
  have atMark : matchHere (.run false true 1 none notSpace :: .literal (ascii " ") :: pieces)
      (ascii "[**]" ++ (ascii " " ++ after)) = some found := by
    refine matchHere_greedy_unbounded false notSpace _ (ascii "[**]") _ ?_ (by decide)
      (fun _ atHead => by cases atHead; rfl) found atBlank
    exact List.all_eq_true.mp (by decide)
  have atBlanks := (matchHere_literal_append (ascii "  ") _ _).trans atMark
  exact matchHere_word notSpace _ nonempty plain (fun _ atHead => by cases atHead; rfl) atBlanks

private theorem bracket_of_matchHere {text : Bytes}
    (matched : matchHere (priorityPattern ++ (protoPattern ++ pieces)) text = some found) :
    ∃ body rest, text = 91 :: (body ++ (93 :: (32 :: 123 :: rest))) ∧ (93 : Byte) ∉ body := by
  obtain ⟨atDigit, same, matchedDigit⟩ := matchHere_literal_eq_some matched
  obtain ⟨digit, atBracket, _, sameDigit, letters, -, -, matchedBracket, -⟩ :=
    matchHere_run_eq_some matchedDigit
  obtain ⟨atBrace, sameBracket, matchedBrace⟩ := matchHere_literal_eq_some matchedBracket
  obtain ⟨atProto, sameBrace, -⟩ := matchHere_literal_eq_some matchedBrace
  refine ⟨ascii "Priority: " ++ digit, atProto, ?_, ?_⟩
  · rw [same, sameDigit, sameBracket, sameBrace, List.append_assoc]
    rfl
  · rw [List.mem_append]
    intro either
    rcases either with inWord | inDigit
    · exact absurd inWord (by decide)
    · cases letters 93 inDigit

private theorem no_priority_before (alert : SnortAlert) (after : Bytes) :
    ∀ count < (ascii " " ++ alert.classificationText).length,
      matchHere (priorityPattern ++ (protoPattern ++ pieces))
        ((ascii " " ++ alert.classificationText).drop count ++ (91 :: after)) = none := by
  intro count inside
  cases matched : matchHere _ _ with
  | none => rfl
  | some found =>
      obtain ⟨body, rest, same, bodyPlain⟩ := bracket_of_matchHere pieces matched
      cases absent : alert.classification with
      | none =>
          have nothing : alert.classificationText = [] := by
            rw [SnortAlert.classificationText, absent]
          rw [nothing] at inside same
          obtain rfl : count = 0 := Nat.lt_one_iff.mp inside
          cases same
      | some text =>
          have shape : ascii " " ++ alert.classificationText =
              (ascii " [Classification: " ++ text) ++ ascii "] " := by
            rw [SnortAlert.classificationText, absent, List.append_assoc]
            rfl
          have plain : (93 : Byte) ∉ ascii " [Classification: " ++ text := by
            rw [List.mem_append]
            intro either
            rcases either with inWord | inText
            · exact absurd inWord (by decide)
            · exact (alert.classificationLine text absent 93 inText).2 rfl
          rw [shape] at inside same
          generalize ascii " [Classification: " ++ text = front at inside same plain
          rw [List.length_append] at inside
          have three : count < front.length ∨ count = front.length ∨ count = front.length + 1 := by
            have two : (ascii "] ").length = 2 := rfl
            omega
          rcases three with before | rfl | rfl
          · rw [List.drop_append_of_le_length (by omega), List.append_assoc] at same
            -- The first closing brackets coincide, but not what is behind them.
            have noBracket : (93 : Byte) ∉ front.drop count :=
              fun member => plain (List.mem_of_mem_drop member)
            have noBracket' : (93 : Byte) ∉ 91 :: body := by simpa using bodyPlain
            have behind := (split_at_first noBracket noBracket' same).2
            cases behind
          · rw [List.drop_left] at same
            cases same
          · rw [List.drop_append, List.drop_eq_nil_of_le (by omega),
              Nat.add_sub_cancel_left] at same
            cases same

end Parts

private theorem classificationText_letters (alert : SnortAlert) :
    ∀ letter ∈ ascii " " ++ alert.classificationText, JavaText.dot letter = true := by
  have blank : ∀ letter ∈ ascii " ", JavaText.dot letter = true :=
    List.all_eq_true.mp (by decide)
  have word : ∀ letter ∈ ascii " [Classification: ", JavaText.dot letter = true :=
    List.all_eq_true.mp (by decide)
  have close : ∀ letter ∈ ascii "] ", JavaText.dot letter = true :=
    List.all_eq_true.mp (by decide)
  intro letter member
  unfold SnortAlert.classificationText at member
  cases present : alert.classification with
  | none =>
      rw [present, List.append_nil] at member
      exact blank letter member
  | some text =>
      rw [present] at member
      have parts : letter ∈ ascii " [Classification: " ++ (text ++ ascii "] ") := member
      rw [List.mem_append, List.mem_append] at parts
      rcases parts with inWord | inText | inClose
      · exact word letter inWord
      · exact (alert.classificationLine text present letter inText).1
      · exact close letter inClose

private theorem timestamp_mem (timestamp : SnortTimestamp) :
    ∀ letter ∈ timestamp.text, isDigit 10 letter = true ∨
      letter = 47 ∨ letter = 45 ∨ letter = 58 ∨ letter = 46 := by
  have number : ∀ width value, ∀ letter ∈ padded width value, isDigit 10 letter = true ∨
      letter = 47 ∨ letter = 45 ∨ letter = 58 ∨ letter = 46 :=
    fun _ _ _ member => .inl (isDigit_of_mem_padded member)
  simp only [SnortTimestamp.text, List.forall_mem_append, List.forall_mem_cons]
  exact ⟨number _ _, by decide, number _ _, by decide, number _ _, by decide, number _ _,
    by decide, number _ _, by decide, number _ _, by decide, number _ _⟩

private theorem timestamp_ne_nil (timestamp : SnortTimestamp) : timestamp.text ≠ [] := by
  intro nothing
  cases (List.append_eq_nil_iff.mp nothing).2

private theorem timestamp_plain (timestamp : SnortTimestamp) :
    ∀ letter ∈ timestamp.text, notSpace letter = true ∧ JavaText.dot letter = true := by
  intro letter member
  rcases timestamp_mem timestamp letter member with digit | rfl | rfl | rfl | rfl
  · exact ⟨(notColon_of_digit digit).2, JavaText.dot_of_digit digit⟩
  all_goals exact ⟨rfl, rfl⟩

theorem find_line {alert : SnortAlert} (covered : alert.Covered) :
    p.find alert.line = some (alert.groups, []) := by
  obtain ⟨src, srcIs⟩ := covered.src
  obtain ⟨dst, dstIs⟩ := covered.dst
  have atEndpoints := matchHere_endpoints src dst alert.src.port alert.dst.port
  have atProto := matchHere_proto _ alert.protoNamed covered.proto atEndpoints
  have atPriority := matchHere_priority _ covered.priority atProto
  have atBetween := matchHere_lazy false JavaText.dot _ _ _ (classificationText_letters alert) _
    atPriority (no_priority_before _ alert _)
  have atMark := (matchHere_literal_append (ascii " [**]") _ _).trans atBetween
  have atMessage := matchHere_lazy true JavaText.dot _ _ _ alert.messageLine _ atMark (by
    intro count inside
    apply matchHere_literal_of_not_prefix
    exact not_prefix_before (by decide) covered.message (List.drop_suffix _ _)
      (List.ne_nil_of_length_pos (by rw [List.length_drop]; omega)) _)
  have atSig := matchHere_sig _ alert.gid alert.sid alert.rev atMessage
  have atTs := matchHere_ts _ (timestamp_ne_nil alert.timestamp)
    (fun letter member => (timestamp_plain _ letter member).1) atSig
  have ends : alert.src.text ++ (ascii " -> " ++ alert.dst.text) =
      PacketTuple.ipToString src ++ (SnortEndpoint.portText alert.src.port ++ (ascii " -> " ++
        (PacketTuple.ipToString dst ++ SnortEndpoint.portText alert.dst.port))) := by
    rw [SnortEndpoint.text, SnortEndpoint.text, srcIs, dstIs, List.append_assoc]
    rfl
  rw [SnortAlert.line, ends, SnortAlert.groups, srcIs, dstIs]
  exact find_of_matchHere atTs

/-! ### What any match captures -/

private theorem captured_run {greedy : Bool} {least : Nat} {most : Option Nat}
    {letters : Byte → Bool} {pieces : Pattern} {text : Bytes} {found : List Bytes × Bytes}
    (matched : matchHere (.run true greedy least most letters :: pieces) text = some found) :
    ∃ taken rest later, found.1 = taken :: later.1 ∧ matchHere pieces rest = some later ∧
      (∀ letter ∈ taken, letters letter = true) ∧ least ≤ taken.length ∧
      ∀ bound ∈ most, taken.length ≤ bound := by
  obtain ⟨taken, rest, later, -, allowed, enough, bounded, matchedLater, rfl, -⟩ :=
    matchHere_run_eq_some matched
  exact ⟨taken, rest, later, rfl, matchedLater, allowed, enough, bounded⟩

private theorem captured_skip {greedy : Bool} {least : Nat} {most : Option Nat}
    {letters : Byte → Bool} {pieces : Pattern} {text : Bytes} {found : List Bytes × Bytes}
    (matched : matchHere (.run false greedy least most letters :: pieces) text = some found) :
    ∃ rest, matchHere pieces rest = some found := by
  obtain ⟨_, rest, later, -, -, -, -, matchedLater, same, -⟩ := matchHere_run_eq_some matched
  exact ⟨rest, same ▸ matchedLater⟩

private theorem captured_literal {word : Bytes} {pieces : Pattern} {text : Bytes}
    {found : List Bytes × Bytes}
    (matched : matchHere (.literal word :: pieces) text = some found) :
    ∃ rest, matchHere pieces rest = some found := by
  obtain ⟨rest, -, matchedRest⟩ := matchHere_literal_eq_some matched
  exact ⟨rest, matchedRest⟩

section Captured

variable {pieces : Pattern} {text : Bytes} {found : List Bytes × Bytes}

private theorem captured_ts (matched : matchHere (tsPattern ++ pieces) text = some found) :
    ∃ ts rest later, found.1 = ts :: later.1 ∧ matchHere pieces rest = some later := by
  obtain ⟨ts, _, later, same, atBlanks, -⟩ := captured_run matched
  obtain ⟨_, atMark⟩ := captured_literal atBlanks
  obtain ⟨_, atBlank⟩ := captured_skip atMark
  obtain ⟨rest, atPieces⟩ := captured_literal atBlank
  exact ⟨ts, rest, later, same, atPieces⟩

private theorem captured_sig (matched : matchHere (sigPattern ++ pieces) text = some found) :
    ∃ gid sid rev rest later, found.1 = gid :: sid :: rev :: later.1 ∧
      matchHere pieces rest = some later := by
  obtain ⟨_, atGid⟩ := captured_literal matched
  obtain ⟨gid, _, _, sameGid, behindGid, -⟩ := captured_run atGid
  obtain ⟨_, atSid⟩ := captured_literal behindGid
  obtain ⟨sid, _, _, sameSid, behindSid, -⟩ := captured_run atSid
  obtain ⟨_, atRev⟩ := captured_literal behindSid
  obtain ⟨rev, _, later, sameRev, behindRev, -⟩ := captured_run atRev
  obtain ⟨rest, atPieces⟩ := captured_literal behindRev
  exact ⟨gid, sid, rev, rest, later, by rw [sameGid, sameSid, sameRev], atPieces⟩

private theorem captured_priority
    (matched : matchHere (priorityPattern ++ pieces) text = some found) :
    ∃ letter rest later, found.1 = [letter] :: later.1 ∧ matchHere pieces rest = some later := by
  obtain ⟨_, atDigit⟩ := captured_literal matched
  obtain ⟨priority, _, later, same, atBracket, -, atLeast, atMost⟩ := captured_run atDigit
  obtain ⟨rest, atPieces⟩ := captured_literal atBracket
  have single : priority.length = 1 := Nat.le_antisymm (atMost 1 rfl) atLeast
  obtain ⟨letter, rfl⟩ := List.length_eq_one_iff.mp single
  exact ⟨letter, rest, later, same, atPieces⟩

private theorem captured_proto (matched : matchHere (protoPattern ++ pieces) text = some found) :
    ∃ proto rest later, found.1 = proto :: later.1 ∧ matchHere pieces rest = some later ∧
      ∀ letter ∈ proto, wordOrPlus letter = true := by
  obtain ⟨_, atWord⟩ := captured_literal matched
  obtain ⟨proto, _, later, same, atBrace, word, -⟩ := captured_run atWord
  obtain ⟨rest, atPieces⟩ := captured_literal atBrace
  exact ⟨proto, rest, later, same, atPieces, word⟩

private theorem captured_address
    (matched : matchHere (addressPattern ++ pieces) text = some found) :
    ∃ address port rest later, found.1 = address :: port :: later.1 ∧
      matchHere pieces rest = some later ∧ colon ∉ address := by
  obtain ⟨address, _, _, sameAddress, atColon, plain, -⟩ := captured_run matched
  obtain ⟨_, atPort⟩ := captured_skip atColon
  obtain ⟨port, rest, later, samePort, atPieces, -⟩ := captured_run atPort
  exact ⟨address, port, rest, later, by rw [sameAddress, samePort], atPieces, fun member => by
    cases plain colon member⟩

private theorem captured_message
    (matched : matchHere (messagePattern ++ pieces) text = some found) :
    ∃ message rest later, found.1 = message :: later.1 ∧ matchHere pieces rest = some later ∧
      ¬ ascii " [**]" <:+: message := by
  obtain ⟨message, after, later, same, letters, -, -, atMark, rfl, least⟩ :=
    matchHere_run_eq_some matched
  obtain ⟨behind, sameBehind, atBetween⟩ := matchHere_literal_eq_some atMark
  obtain ⟨between, rest, later', sameBetween, dots, -, -, atRest, sameLater, -⟩ :=
    matchHere_run_eq_some atBetween
  have keeps : later = later' := sameLater
  have atRest' : matchHere pieces rest = some later' := atRest
  refine ⟨message, rest, later, rfl, keeps ▸ atRest', ?_⟩
  intro given
  rcases given with ⟨front, back, parts⟩
  -- Stopping at the earlier mark, the rest up to the same place is skipped.
  have longer : front.length < message.length := by
    have five : (ascii " [**]").length = 5 := rfl
    have sizes := congrArg List.length parts
    rw [List.length_append, List.length_append] at sizes
    omega
  have missed := least rfl front.length longer (Nat.zero_le _)
  have skipped : text.drop front.length =
      ascii " [**]" ++ ((back ++ (ascii " [**]" ++ between)) ++ rest) := by
    rw [same, ← parts, sameBehind, sameBetween]
    simp
  have skippable : ∀ letter ∈ back ++ (ascii " [**]" ++ between), JavaText.dot letter = true := by
    have mark : ∀ letter ∈ ascii " [**]", JavaText.dot letter = true :=
      List.all_eq_true.mp (by decide)
    rw [List.forall_mem_append, List.forall_mem_append]
    refine ⟨fun letter member => letters letter ?_, mark, dots⟩
    rw [← parts]
    exact List.mem_append_right _ member
  rw [skipped] at missed
  have reaches : matchHere (.run false false 0 none JavaText.dot :: pieces)
      ((back ++ (ascii " [**]" ++ between)) ++ rest) ≠ none :=
    matchHere_run_ne_none skippable (Nat.zero_le _) (fun _ absent => by cases absent)
      (fun missing => Option.some_ne_none later' (atRest'.symm.trans missing))
  exact reaches ((matchHere_literal_append _ _ _).symm.trans missed)

end Captured

/-- The groups of a match: one letter of priority, no dash in the protocol, no
colon in an address and no mark in the message. -/
theorem groups_of_find {line : Bytes} {found : List Bytes × Bytes}
    (matched : p.find line = some found) :
    ∃ letter, group found.1 6 = [letter] ∧ ¬ ascii " [**]" <:+: group found.1 5 ∧
      (∀ letter ∈ group found.1 7, wordOrPlus letter = true) ∧
      colon ∉ group found.1 8 ∧ colon ∉ group found.1 10 := by
  obtain ⟨_, _, -, atTs⟩ := find_eq_some matched
  obtain ⟨ts, _, _, sameTs, atSig⟩ := captured_ts atTs
  obtain ⟨gid, sid, rev, _, _, sameSig, atMessage⟩ := captured_sig atSig
  obtain ⟨message, _, _, sameMessage, atPriority, unmarked⟩ := captured_message atMessage
  obtain ⟨letter, _, _, samePriority, atProto⟩ := captured_priority atPriority
  obtain ⟨proto, _, _, sameProto, atSrc, word⟩ := captured_proto atProto
  obtain ⟨src, sport, _, _, sameSrc, atArrow, srcPlain⟩ := captured_address atSrc
  obtain ⟨_, atDst⟩ := captured_literal atArrow
  rw [← List.append_nil addressPattern] at atDst
  obtain ⟨dst, dport, _, _, sameDst, -, dstPlain⟩ := captured_address atDst
  rw [sameTs, sameSig, sameMessage, samePriority, sameProto, sameSrc, sameDst]
  exact ⟨letter, rfl, unmarked, word, srcPlain, dstPlain⟩

/-! ### Reading an alert -/

theorem nextKeyValue_eq_item {calendar : DateFields → Int}
    {readLine : Bytes → Except JavaException (Option (Bytes × Bytes))}
    {reader after : Option Bytes} {keyed : Keyed SnortTuple}
    (returned : nextKeyValue calendar readLine reader = .item keyed after) :
    ∃ text line rest found, reader = some text ∧ readLine text = .ok (some (line, rest)) ∧
      p.find line = some found ∧ readGroups calendar found.1 = .ok keyed ∧ after = some rest := by
  cases reader with
  | none => cases returned
  | some text =>
      unfold nextKeyValue at returned
      rcases read : readLine text with _ | _ | ⟨line, rest⟩
      · simp only [read, reduceCtorEq] at returned
      · simp only [read, reduceCtorEq] at returned
      · cases found : p.find line with
        | none => simp only [read, found, reduceCtorEq] at returned
        | some found' =>
            cases groups : readGroups calendar found'.1 with
            | error exception => simp only [read, found, groups, reduceCtorEq] at returned
            | ok keyed' =>
                simp only [read, found, groups, Pull.item.injEq] at returned
                rcases returned with ⟨rfl, rfl⟩
                exact ⟨text, line, rest, found', rfl, read, found, groups, rfl⟩

theorem readGroups_eq_ok {calendar : DateFields → Int} {groups : List Bytes}
    {keyed : Keyed SnortTuple} (read : readGroups calendar groups = .ok keyed) :
    ∃ ts priority, SimpleDateFormat.parse calendar (group groups 1) = some ts ∧
      JavaText.parseInt (group groups 6) = some priority ∧
      keyed =
        { key := ts.tdiv 1000
          tuple :=
            { sig := group groups 2 ++ ascii "_" ++ group groups 3
              priority
              message := group groups 5
              proto := group groups 7
              src := group groups 8
              sport := port (group groups 9)
              dst := group groups 10
              dport := port (group groups 11) } } := by
  unfold readGroups at read
  cases parsed : SimpleDateFormat.parse calendar (group groups 1) with
  | none => simp only [parsed, reduceCtorEq] at read
  | some ts =>
      cases number : JavaText.parseInt (group groups 6) with
      | none => simp only [parsed, number, reduceCtorEq] at read
      | some priority =>
          simp only [parsed, number, Except.ok.injEq] at read
          exact ⟨ts, priority, rfl, rfl, read.symm⟩

private theorem port_portText (number : Option (BitVec 16)) :
    port (SnortEndpoint.portText number).tail = SnortEndpoint.portNumber number := by
  cases number with
  | none => rfl
  | some number =>
      have read := JavaText.parseInt_decimal (show number.toNat < 2 ^ 31 by omega)
      rw [port, SnortEndpoint.portText, List.tail_cons, read]
      rfl

theorem readGroups_groups (calendar : DateFields → Int) {alert : SnortAlert}
    (small : alert.priority ≤ 9) :
    readGroups calendar alert.groups =
      .ok ⟨(1000 * calendar alert.timestamp.fields + (alert.timestamp.micros : Nat)).tdiv 1000,
        alert.tuple⟩ := by
  have ts : SimpleDateFormat.parse calendar (group alert.groups 1) = _ :=
    SimpleDateFormat.parse_timestamp calendar alert.timestamp
  have priority : JavaText.parseInt (group alert.groups 6) = _ :=
    JavaText.parseInt_decimal (show alert.priority < 2 ^ 31 by omega)
  simp only [readGroups, ts, priority, SnortAlert.tuple, ← port_portText]
  rfl

private theorem endpoint_letters (endpoint : SnortEndpoint) :
    ∀ letter ∈ endpoint.text, JavaText.dot letter = true := by
  intro letter member
  rcases List.mem_append.mp member with inAddress | inPort
  · cases address : endpoint.address with
    | ipv4 addr =>
        rw [address] at inAddress
        rcases ipToString_letters inAddress with rfl | digit
        · rfl
        · exact JavaText.dot_of_digit digit
    | ipv6 text colons plain =>
        rw [address] at inAddress
        exact (plain letter inAddress).1
  · cases present : endpoint.port with
    | none =>
        rw [present] at inPort
        cases inPort
    | some port =>
        rw [present] at inPort
        rcases List.mem_cons.mp inPort with rfl | inNumber
        · rfl
        · exact JavaText.dot_of_digit (isDigit_of_mem_decimal inNumber)

private theorem line_letters (alert : SnortAlert) :
    ∀ letter ∈ alert.line, JavaText.dot letter = true := by
  have word : ∀ text : Bytes, text.all JavaText.dot = true →
      ∀ letter ∈ text, JavaText.dot letter = true := fun _ => List.all_eq_true.mp
  have number : ∀ value, ∀ letter ∈ decimal value, JavaText.dot letter = true :=
    fun _ _ member => JavaText.dot_of_digit (isDigit_of_mem_decimal member)
  have between := List.forall_mem_append.mp (classificationText_letters alert)
  simp only [SnortAlert.line, List.forall_mem_append]
  exact ⟨fun letter member => (timestamp_plain _ letter member).2, word _ rfl, word _ rfl,
    word _ rfl, word _ rfl, number _, word _ rfl, number _, word _ rfl, number _, word _ rfl,
    alert.messageLine, word _ rfl, between, word _ rfl, number _, word _ rfl, word _ rfl,
    alert.protoLine, word _ rfl, endpoint_letters _, word _ rfl, endpoint_letters _⟩

theorem readLine_line (alert : SnortAlert) (rest : Bytes) :
    JavaText.readLine (alert.line ++ lineFeed :: rest) = some (alert.line, rest) :=
  JavaText.readLine_of_dots (line_letters alert) rest

theorem nextKeyValue_covered (calendar : DateFields → Int) {alert : SnortAlert}
    (covered : alert.Covered) (rest : Bytes) :
    nextKeyValue calendar readable (some (alert.line ++ lineFeed :: rest)) =
      .item ⟨(1000 * calendar alert.timestamp.fields + (alert.timestamp.micros : Nat)).tdiv 1000,
        alert.tuple⟩ (some rest) := by
  simp only [nextKeyValue, readable, readLine_line alert, find_line covered,
    readGroups_groups calendar covered.priority]

/-- The line of the alert, with anything behind it, is returned with every
field as the alert has it. -/
def ReadsRight (calendar : DateFields → Int) (alert : SnortAlert) : Prop :=
  ∀ rest, ∃ key,
    nextKeyValue calendar readable (some (alert.line ++ lineFeed :: rest)) =
      .item ⟨key, alert.tuple⟩ (some rest)

private theorem ipv4_of_no_colon {address : SnortAddress} (plain : colon ∉ address.text) :
    ∃ addr, address = .ipv4 addr := by
  cases address with
  | ipv4 addr => exact ⟨addr, rfl⟩
  | ipv6 text colons _ => exact absurd colons plain

private theorem covered_of_readsRight {calendar : DateFields → Int} {alert : SnortAlert}
    (right : ReadsRight calendar alert) : alert.Covered := by
  obtain ⟨key, returned⟩ := right []
  obtain ⟨_, line, _, found, -, -, matched, read, -⟩ := nextKeyValue_eq_item returned
  obtain ⟨ts, priority, -, number, same⟩ := readGroups_eq_ok read
  obtain ⟨letter, single, unmarked, word, src, dst⟩ := groups_of_find matched
  have fields := congrArg Keyed.tuple same
  simp only [SnortAlert.tuple, SnortTuple.mk.injEq] at fields
  rcases fields with ⟨-, samePriority, sameMessage, sameProto, sameSrc, -, sameDst, -⟩
  rw [single, ← samePriority] at number
  exact
    { priority := by
        have small := JavaText.parseInt_single number
        omega
      proto := sameProto ▸ word
      src := ipv4_of_no_colon (sameSrc ▸ src)
      dst := ipv4_of_no_colon (sameDst ▸ dst)
      message := sameMessage ▸ unmarked }

/-- An alert is read right exactly when the pattern covers it. -/
theorem readsRight_iff (calendar : DateFields → Int) (alert : SnortAlert) :
    ReadsRight calendar alert ↔ alert.Covered := by
  constructor
  · exact covered_of_readsRight
  · intro covered rest
    exact ⟨_, nextKeyValue_covered calendar covered rest⟩

def alertAt (micros : Fin 1000000) : SnortAlert :=
  { timestamp := ⟨11, 30, 11, 20, 23, 31, micros⟩
    gid := 120
    sid := 3
    rev := 1
    message := ascii "(http_inspect) NO CONTENT-LENGTH"
    messageLine := List.all_eq_true.mp rfl
    classification := none
    classificationLine := fun _ absent => by cases absent
    priority := 3
    positive := Nat.zero_lt_succ 2
    proto := ascii "TCP"
    protoNamed := List.cons_ne_nil _ _
    protoLine := List.all_eq_true.mp rfl
    src := ⟨.ipv4 0x4A7DED7B, some 80⟩
    dst := ⟨.ipv4 0xC0A80013, some 42514⟩ }

theorem alertAt_covered (micros : Fin 1000000) : (alertAt micros).Covered :=
  { priority := Nat.le_of_ble_eq_true rfl
    proto := List.all_eq_true.mp rfl
    src := ⟨_, rfl⟩
    dst := ⟨_, rfl⟩
    message := by
      intro inside
      have star : (42 : Byte) ∈ ascii "(http_inspect) NO CONTENT-LENGTH" :=
        inside.subset (show (42 : Byte) ∈ ascii " [**]" by decide)
      exact absurd star (by decide) }

private theorem linkLocal_plain :
    ∀ letter ∈ ascii "fe80::1", JavaText.dot letter = true ∧ letter ≠ space := by
  have letters : ∀ letter ∈ ascii "fe80::1", JavaText.dot letter = true ∧
      notSpace letter = true := both_of_all rfl
  intro letter member
  obtain ⟨dot, notBlank⟩ := letters letter member
  exact ⟨dot, of_decide_eq_true notBlank⟩

/-- The same alert from `fe80::1`. -/
def linkLocalAlert : SnortAlert :=
  { alertAt 674725 with
    src := ⟨.ipv6 (ascii "fe80::1") (by decide) linkLocal_plain, some 80⟩ }

theorem link_local_source_misread : ¬ ReadsRight (fun _ => 0) linkLocalAlert := by
  intro right
  obtain ⟨addr, ipv4⟩ := (covered_of_readsRight right).src
  cases ipv4

end SnortRecordReader

end Packetpig
