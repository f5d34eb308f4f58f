/-
`http_split` on well-formed header blocks: the map lacks the last line, and a
block without header lines is not taken for a message at all.
-/

import Packetpig.Tcp.HttpMessages

namespace Packetpig

open Text

namespace HttpMessage

open HttpHandler

/-- `http_split` returns the status, the payload and a map with exactly the
header lines of the message, the names in lower case. -/
def SplitsRight (message : HttpMessage) : Prop :=
  ∃ bits, httpSplit message.wire = some bits ∧ bits.status = message.status ∧
    bits.payload = message.body ∧
    ∀ name value, bits.headers.lookup name = some value ↔
      ∃ header ∈ message.headers, lower header.1 = name ∧ header.2 = value

theorem httpSplit_of_no_headers (message : HttpMessage) (empty : message.headers = []) :
    httpSplit message.wire = none := by
  have blank : splitOnce (crlf ++ crlf) (crlf ++ (crlf ++ message.body)) =
      some ([], message.body) := by
    have here := splitOnce_here (crlf ++ crlf) message.body (by decide)
    rwa [List.append_assoc] at here
  have outer : splitOnce (crlf ++ crlf) message.wire = some (message.status, message.body) := by
    rw [wire, empty, headerLines, List.flatMap_nil, List.nil_append]
    change splitOnce (carriageReturn :: _) _ = _
    rw [splitOnce_append carriageReturn _ _ _ message.statusPlain.1]
    exact (congrArg (Option.map _) blank).trans (by simp)
  have inner : splitOnce crlf message.status = none := by
    apply splitOnce_eq_none
    intro inside
    exact message.statusPlain.1 (inside.subset List.mem_cons_self)
  simp only [httpSplit, outer, inner]

theorem httpSplit_of_headers (message : HttpMessage) {init : List (Bytes × Bytes)}
    {last : Bytes × Bytes} (whole : message.headers = init ++ [last]) :
    ∃ rawHeader, httpSplit message.wire =
      some
        { rawHeader
          status := message.status
          headers := foundHeaders init
          payload := message.body } := by
  have split := httpSplit_wire message.status init last message.body message.statusPlain
    (whole ▸ message.namePlain) (whole ▸ message.valuePlain)
  rw [← whole] at split
  exact ⟨_, split⟩

theorem lookup_last (message : HttpMessage) {init : List (Bytes × Bytes)}
    {last : Bytes × Bytes} (whole : message.headers = init ++ [last]) :
    (foundHeaders init).lookup (lower last.1) = none :=
  message.lookup_of_absent whole (message.distinct_init whole).2

/-- No header block is split right. -/
theorem not_splitsRight (message : HttpMessage) : ¬ message.SplitsRight := by
  intro given
  rcases given with ⟨bits, split, -, -, entries⟩
  rcases List.eq_nil_or_concat' message.headers with empty | ⟨init, last, whole⟩
  · rw [message.httpSplit_of_no_headers empty] at split
    cases split
  · obtain ⟨rawHeader, taken⟩ := message.httpSplit_of_headers whole
    obtain rfl := Option.some.inj (taken.symm.trans split)
    have member : last ∈ message.headers := by
      rw [whole]
      exact List.mem_append_right init (List.mem_singleton_self last)
    have found := (entries (lower last.1) last.2).mpr ⟨last, member, rfl, rfl⟩
    rw [message.lookup_last whole] at found
    cases found

def hostMessage : HttpMessage where
  status := ascii "GET / HTTP/1.1"
  headers := [(ascii "Host", ascii "example")]
  body := []
  statusPlain := by decide
  namePlain := by decide
  valuePlain := by decide
  distinct := by decide

/-- The only header line of a request is lost. -/
theorem host_header_lost : ¬ hostMessage.SplitsRight := by
  intro given
  rcases given with ⟨bits, split, -, -, entries⟩
  have whole : hostMessage.headers = [] ++ [(ascii "Host", ascii "example")] := rfl
  obtain ⟨rawHeader, taken⟩ := hostMessage.httpSplit_of_headers whole
  obtain rfl := Option.some.inj (taken.symm.trans split)
  have found := (entries (ascii "host") (ascii "example")).mpr
    ⟨(ascii "Host", ascii "example"), List.mem_singleton_self _, by decide, rfl⟩
  have missing : (foundHeaders []).lookup (ascii "host") = none := rfl
  rw [missing] at found
  cases found

end HttpMessage

end Packetpig
