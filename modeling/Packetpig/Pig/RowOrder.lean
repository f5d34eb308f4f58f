/-
The scripts and the order of their input. Hadoop reads the files of a relation
side by side, so that its rows arrive in any order.
-/

import Packetpig.Pig.Binning
import Packetpig.Pig.ChoroplethSnort
import Packetpig.Pig.Conversations
import Packetpig.Pig.GlobeSnort
import Packetpig.Pig.PacketLatency
import Packetpig.Pig.SnortBreakdown
import Packetpig.Pig.SnortComparison
import Packetpig.Pig.SnortCountryChart

namespace Packetpig

open Text Groups

theorem GlobeSnort.average_perm {priorities priorities' : List Int}
    (order : priorities.Perm priorities') : average priorities = average priorities' := by
  rw [average, average, order.sum_eq, order.length_eq]

theorem Binning.summarize_perm (time : Int) (column : PigPacket → Int)
    {packets packets' : List PigPacket} (order : packets.Perm packets') :
    (summarize time column packets).Perm (summarize time column packets') :=
  groupBy_perm order fun wanted _ _ perm => congrArg (Prod.mk wanted) (perm.map column).sum_eq

theorem Binning.summary_perm (time : Int) {packets packets' : List PigPacket}
    (order : packets.Perm packets') : (summary time packets).Perm (summary time packets') := by
  have ofTcp : (tcpSummary time packets).Perm (tcpSummary time packets') :=
    summarize_perm time _ (order.filter _)
  have ofUdp : (udpSummary time packets).Perm (udpSummary time packets') :=
    summarize_perm time _ (order.filter _)
  have ofAll : (bwSummary time packets).Perm (bwSummary time packets') :=
    summarize_perm time _ order
  exact (innerJoin_perm (innerJoin_perm ofTcp ofUdp) ofAll).map _

theorem Conversations.script_perm (time : Int) {conversations conversations' : List Columns}
    {packets packets' : List Columns} (order : conversations.Perm conversations')
    (order' : packets.Perm packets') :
    (script time conversations packets).Perm (script time conversations' packets') := by
  have rows : (joined time conversations packets).Perm (joined time conversations' packets') :=
    innerJoin_perm (order.filterMap _) (order'.filterMap _)
  exact groupBy_perm rows fun _ _ _ perm => (perm.map _).sum_eq

theorem PacketLatency.script_perm (bucket : Rat → Int)
    {conversations conversations' : List (Keyed ConversationRow)}
    (order : conversations.Perm conversations') :
    (script bucket conversations).Perm (script bucket conversations') := by
  have buckets : (intervals bucket conversations).Perm (intervals bucket conversations') :=
    (order.flatMap_right _).map bucket
  exact groupBy_perm buckets fun place _ _ perm => congrArg (Prod.mk place) perm.length_eq

theorem GlobeSnort.summarize_order {latlons latlons' : List (Option Bytes × Int)}
    (order : latlons.Perm latlons') : (summarize latlons).Perm (summarize latlons') := by
  refine (List.mergeSort_perm _ _).trans (List.Perm.trans ?_ (List.mergeSort_perm _ _).symm)
  apply groupBy_perm order
  intro wanted part part' perm
  dsimp only
  rw [average_perm (perm.map Prod.snd), perm.length_eq]

theorem SnortCountryChart.snortAll_perm {alerts alerts' : List (Bytes × Int)}
    (order : alerts.Perm alerts') : (snortAll alerts).Perm (snortAll alerts') :=
  groupBy_perm order fun wanted _ _ perm =>
    congrArg (CountryAttacks.mk wanted.1 wanted.2) perm.length_eq

theorem ChoroplethSnort.summarize_perm {countries countries' : List (Bytes × Int)}
    (order : countries.Perm countries') : (summarize countries).Perm (summarize countries') :=
  groupBy_perm order fun wanted _ _ perm =>
    congrArg (CountrySeverity.mk wanted) (GlobeSnort.average_perm (perm.map Prod.snd))

theorem SnortBreakdown.summary_perm (time : Int) {alerts alerts' : List (Keyed SnortTuple)}
    (order : alerts.Perm alerts') : (summary time alerts).Perm (summary time alerts') := by
  have counts : ∀ level, (prioSummary time level alerts).Perm (prioSummary time level alerts') :=
    fun level => groupBy_perm (order.filter _) fun start _ _ perm =>
      congrArg (Prod.mk start) perm.length_eq
  exact (fullJoin_perm (counts 1) (counts 3)).map _

section Comparison

open SnortComparison

variable {older older' newer newer' : List (Keyed SnortTuple)}

theorem SnortComparison.raises_perm (olds : older.Perm older') : raises older = raises older' := by
  funext wanted
  rw [Bool.eq_iff_iff, raises_iff, raises_iff, (olds.map sig).mem_iff]

theorem SnortComparison.unseen_perm (olds : older.Perm older') (news : newer.Perm newer') :
    (unseen older newer).Perm (unseen older' newer') := by
  rw [unseen, unseen, raises_perm olds]
  exact news.filter _

theorem SnortComparison.newOnlyFlattened_perm (olds : older.Perm older')
    (news : newer.Perm newer') :
    (newOnlyFlattened older newer).Perm (newOnlyFlattened older' newer') :=
  flattened_perm.trans ((unseen_perm olds news).trans flattened_perm.symm)

theorem SnortComparison.newOnlySummary_perm (olds : older.Perm older')
    (news : newer.Perm newer') :
    (newOnlySummary older newer).Perm (newOnlySummary older' newer') := by
  have sigs : (newSigs older newer).Perm (newSigs older' newer') := by
    rw [newSigs, newSigs, raises_perm olds]
    exact (((olds.map sig).append (news.map sig)).dedup).filter _
  have counts : ∀ wanted, (group sig newer wanted).length = (group sig newer' wanted).length :=
    fun wanted => (group_perm news wanted).length_eq
  rw [summary_eq, summary_eq, funext counts]
  exact sigs.map _

end Comparison

/-- For rows in another order the script has the same output in some order, or
fails as well. -/
def OrderFree {α β : Type} (script : List α → Except JavaException (List β)) : Prop :=
  ∀ ⦃rows rows' : List α⦄, rows.Perm rows' → ∀ ⦃output⦄, script rows = .ok output →
    ∃ output', script rows' = .ok output' ∧ output.Perm output'

/-- The same for a script of one relation that does not fail. -/
def RowsFree {α β : Type} (script : List α → List β) : Prop :=
  ∀ ⦃rows rows' : List α⦄, rows.Perm rows' → (script rows).Perm (script rows')

def PairFree {α β γ : Type} (script : List α → List β → List γ) : Prop :=
  ∀ ⦃rows rows' : List α⦄ ⦃others others' : List β⦄, rows.Perm rows' → others.Perm others' →
    (script rows others).Perm (script rows' others')

theorem orderFree_foreach {α β γ : Type} {each : α → Except JavaException β}
    {script : List β → List γ} (free : RowsFree script) :
    OrderFree fun rows => do return script (← rows.mapM each) := by
  intro rows rows' order output done
  obtain ⟨results, ran, same⟩ := bind_eq_ok done
  cases same
  obtain ⟨results', ran', order'⟩ := mapM_perm order ran
  refine ⟨script results', ?_, free order'⟩
  dsimp only
  rw [ran']
  rfl

/-- What a script computes does not depend on the order in which the rows of its
relations arrive. -/
theorem scripts_orderFree (time : Int) (bucket : Rat → Int)
    (ll : Bytes → Except JavaException (Option Bytes))
    (country : Bytes → Except JavaException Bytes) :
    RowsFree (fun packets => Binning.summary time (packets.map Binning.load)) ∧
      PairFree (fun conversations packets => Conversations.script time
        (conversations.map Conversations.loadConversation)
        (packets.map Conversations.loadPacket)) ∧
      RowsFree (PacketLatency.script bucket) ∧
      RowsFree (SnortBreakdown.summary time) ∧
      PairFree SnortComparison.newOnlyFlattened ∧
      PairFree SnortComparison.newOnlySummary ∧
      OrderFree (GlobeSnort.script ll) ∧
      OrderFree (SnortCountryChart.script country time) ∧
      OrderFree (ChoroplethSnort.script country) := by
  refine ⟨?_, ?_, ?_, ?_, ?_, ?_, ?_, ?_, ?_⟩
  · intro packets packets' order
    exact Binning.summary_perm time (order.map _)
  · intro conversations conversations' packets packets' order order'
    exact Conversations.script_perm time (order.map _) (order'.map _)
  · intro conversations conversations' order
    exact PacketLatency.script_perm bucket order
  · intro alerts alerts' order
    exact SnortBreakdown.summary_perm time order
  · intro older older' newer newer' olds news
    exact SnortComparison.newOnlyFlattened_perm olds news
  · intro older older' newer newer' olds news
    exact SnortComparison.newOnlySummary_perm olds news
  · apply orderFree_foreach
    intro latlons latlons' order
    exact GlobeSnort.summarize_order order
  · have free : RowsFree fun located =>
        SnortCountryChart.snortAll (SnortCountryChart.snortAlerts located) :=
      fun located located' order => SnortCountryChart.snortAll_perm (order.filter _)
    exact orderFree_foreach free
  · apply orderFree_foreach
    intro countries countries' order
    exact ChoroplethSnort.summarize_perm order

end Packetpig
