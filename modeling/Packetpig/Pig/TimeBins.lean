/-
Which bins binning.pig has a row for. The three summaries are put together by an
inner join, so a bin needs a TCP packet and a UDP packet to keep its row.
-/

import Packetpig.Pig.Binning

namespace Packetpig.Binning

open Groups

/-- The packet lies in the bin that begins at the given second. -/
def InBin (time start : Int) (packet : PigPacket) : Prop :=
  time ∣ start ∧ start ≤ packet.ts ∧ packet.ts < start + time

instance (time start : Int) (packet : PigPacket) : Decidable (InBin time start packet) :=
  inferInstanceAs (Decidable (_ ∧ _ ∧ _))

theorem bin_eq_iff {time : Int} (positive : 1 ≤ time) {packet : PigPacket} (later : 0 ≤ packet.ts)
    (start : Int) : bin time packet = start ↔ InBin time start packet :=
  Bins.bin_eq_iff positive later start

theorem tcp_subset (packets : List PigPacket) : tcp packets ⊆ packets := List.filter_subset_self _

theorem udp_subset (packets : List PigPacket) : udp packets ⊆ packets := List.filter_subset_self _

def bins (time : Int) (packets : List PigPacket) : List Int := (packets.map (bin time)).dedup

theorem bins_nodup (time : Int) (packets : List PigPacket) : (bins time packets).Nodup :=
  List.nodup_dedup _

theorem mem_bins {time start : Int} {packets : List PigPacket} :
    start ∈ bins time packets ↔ ∃ packet ∈ packets, bin time packet = start := by
  unfold bins
  rw [List.mem_dedup, List.mem_map]

theorem summarize_eq (time : Int) (column : PigPacket → Int) (packets : List PigPacket) :
    summarize time column packets =
      table (bins time packets) (groupSum (bin time) column packets) :=
  table_map (bins time packets) (group (bin time) packets) fun rows => (rows.map column).sum

def joinedBins (time : Int) (packets : List PigPacket) : List Int :=
  ((bins time (tcp packets)).filter fun start => start ∈ bins time (udp packets)).filter
    fun start => start ∈ bins time packets

theorem mem_joinedBins {time start : Int} {packets : List PigPacket} :
    start ∈ joinedBins time packets ↔
      (∃ packet ∈ tcp packets, bin time packet = start) ∧
        ∃ packet ∈ udp packets, bin time packet = start := by
  unfold joinedBins
  simp only [List.mem_filter, decide_eq_true_eq, mem_bins]
  constructor
  · intro all
    exact all.1
  · intro both
    refine ⟨both, ?_⟩
    obtain ⟨packet, member, same⟩ := both.1
    exact ⟨packet, (List.mem_filter.mp member).1, same⟩

theorem joinedBins_nodup (time : Int) (packets : List PigPacket) :
    (joinedBins time packets).Nodup :=
  ((bins_nodup _ _).filter _).filter _

theorem summary_eq (time : Int) (packets : List PigPacket) :
    summary time packets = (joinedBins time packets).map fun start =>
      { bin := start
        tcpLen := groupSum (bin time) PigPacket.tcpLen (tcp packets) start
        udpLen := groupSum (bin time) PigPacket.udpLen (udp packets) start
        bw := groupSum (bin time) PigPacket.ipTotalLength packets start } := by
  unfold summary tcpSummary udpSummary bwSummary
  rw [summarize_eq, summarize_eq, summarize_eq, innerJoin_table (bins_nodup _ _),
    innerJoin_table (bins_nodup _ _)]
  unfold table
  rw [List.map_map]
  rfl

theorem sums_of_mem_summary {time : Int} {packets : List PigPacket} {row : BinningRow}
    (member : row ∈ summary time packets) :
    row.tcpLen = groupSum (bin time) PigPacket.tcpLen (tcp packets) row.bin ∧
      row.udpLen = groupSum (bin time) PigPacket.udpLen (udp packets) row.bin ∧
      row.bw = groupSum (bin time) PigPacket.ipTotalLength packets row.bin := by
  rw [summary_eq] at member
  obtain ⟨start, -, same⟩ := List.mem_map.mp member
  subst same
  exact ⟨rfl, rfl, rfl⟩

/-- One row for each bin with a packet and none for the others, with the sums over
the bin; and no byte of the capture is lost. -/
structure CoversBins (time : Int) (packets : List PigPacket) : Prop where
  rows : ∀ start, ((summary time packets).map BinningRow.bin).count start =
    if ∃ packet ∈ packets, InBin time start packet then 1 else 0
  bw : ∀ row ∈ summary time packets,
    row.bw = ((packets.filter (InBin time row.bin)).map PigPacket.ipTotalLength).sum
  tcp : ∀ row ∈ summary time packets,
    row.tcpLen = (((tcp packets).filter (InBin time row.bin)).map PigPacket.tcpLen).sum
  udp : ∀ row ∈ summary time packets,
    row.udpLen = (((udp packets).filter (InBin time row.bin)).map PigPacket.udpLen).sum
  total : ((summary time packets).map BinningRow.bw).sum =
    (packets.map PigPacket.ipTotalLength).sum

/-- Each bin with a packet has a TCP packet and a UDP packet. -/
def Mixed (time : Int) (packets : List PigPacket) : Prop :=
  ∀ start, (∃ packet ∈ packets, InBin time start packet) →
    (∃ packet ∈ tcp packets, InBin time start packet) ∧
      ∃ packet ∈ udp packets, InBin time start packet

section Covers

variable {time : Int} (positive : 1 ≤ time) {packets : List PigPacket}
  (nonnegative : ∀ packet ∈ packets, 0 ≤ packet.ts)

include positive nonnegative

private theorem exists_inBin_iff {some : List PigPacket} (among : some ⊆ packets) (start : Int) :
    (∃ packet ∈ some, bin time packet = start) ↔ ∃ packet ∈ some, InBin time start packet := by
  constructor
  · intro found
    rcases found with ⟨packet, member, same⟩
    exact ⟨packet, member, (bin_eq_iff positive (nonnegative packet (among member)) start).mp same⟩
  · intro found
    rcases found with ⟨packet, member, inside⟩
    exact ⟨packet, member,
      (bin_eq_iff positive (nonnegative packet (among member)) start).mpr inside⟩

private theorem groupSum_inBin {some : List PigPacket} (among : some ⊆ packets)
    (column : PigPacket → Int) (start : Int) :
    groupSum (bin time) column some start =
      ((some.filter (InBin time start)).map column).sum := by
  unfold groupSum group
  rw [List.filter_congr fun packet member =>
    decide_eq_decide.mpr (bin_eq_iff positive (nonnegative packet (among member)) start)]

theorem mem_joinedBins_iff (start : Int) : start ∈ joinedBins time packets ↔
    (∃ packet ∈ tcp packets, InBin time start packet) ∧
      ∃ packet ∈ udp packets, InBin time start packet := by
  rw [mem_joinedBins, exists_inBin_iff positive nonnegative (tcp_subset packets),
    exists_inBin_iff positive nonnegative (udp_subset packets)]

theorem count_summary (start : Int) :
    ((summary time packets).map BinningRow.bin).count start =
      if (∃ packet ∈ tcp packets, InBin time start packet) ∧
        ∃ packet ∈ udp packets, InBin time start packet then 1 else 0 := by
  have starts : (summary time packets).map BinningRow.bin = joinedBins time packets := by
    rw [summary_eq, List.map_map]
    exact List.map_id _
  rw [starts, (joinedBins_nodup time packets).count]
  simp only [mem_joinedBins_iff positive nonnegative]

theorem mixed_of_coversBins (covers : CoversBins time packets) : Mixed time packets := by
  intro start found
  have count := covers.rows start
  rw [count_summary positive nonnegative, if_pos found] at count
  by_contra missing
  rw [if_neg missing] at count
  cases count

theorem coversBins_of_mixed (mixed : Mixed time packets) : CoversBins time packets where
  rows := by
    intro start
    rw [count_summary positive nonnegative]
    by_cases found : ∃ packet ∈ packets, InBin time start packet
    · rw [if_pos (mixed start found), if_pos found]
    · rw [if_neg, if_neg found]
      intro both
      obtain ⟨packet, member, inside⟩ := both.1
      exact found ⟨packet, (List.mem_filter.mp member).1, inside⟩
  bw := by
    intro row member
    rw [(sums_of_mem_summary member).2.2]
    exact groupSum_inBin positive nonnegative (List.Subset.refl _) _ row.bin
  tcp := by
    intro row member
    rw [(sums_of_mem_summary member).1]
    exact groupSum_inBin positive nonnegative (tcp_subset packets) _ row.bin
  udp := by
    intro row member
    rw [(sums_of_mem_summary member).2.1]
    exact groupSum_inBin positive nonnegative (udp_subset packets) _ row.bin
  total := by
    rw [summary_eq, List.map_map]
    apply sum_groupSum (joinedBins_nodup time packets)
    intro packet member
    rw [mem_joinedBins_iff positive nonnegative]
    apply mixed
    exact ⟨packet, member, (bin_eq_iff positive (nonnegative packet member) _).mp rfl⟩

/-- Exactly if no bin lacks one of the two protocols. -/
theorem coversBins_iff : CoversBins time packets ↔ Mixed time packets := by
  constructor
  · exact mixed_of_coversBins positive nonnegative
  · exact coversBins_of_mixed positive nonnegative

end Covers

def packetAt (ts proto : Int) : PigPacket :=
  { ts, ipTotalLength := 40, ipProto := proto, tcpLen := 0, udpLen := 0 }

theorem coversBins_both : CoversBins 60 [packetAt 1 6, packetAt 2 17] := by
  apply (coversBins_iff (by omega) (by decide)).mpr
  intro start found
  rcases found with ⟨packet, member, divides, above, below⟩
  have first : start = 0 := by
    simp only [List.mem_cons, List.not_mem_nil, or_false] at member
    rcases member with same | same
    · simp only [same, packetAt] at above below
      omega
    · simp only [same, packetAt] at above below
      omega
  subst first
  decide

/-- The minute is missing from the output. -/
theorem tcp_alone_missing : ¬ CoversBins 60 [packetAt 1 6] := by
  intro covers
  have total := covers.total
  revert total
  decide

end Packetpig.Binning
