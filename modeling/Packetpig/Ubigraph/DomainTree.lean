/-
What dns.py draws for a sequence of rows: the tree of the domain suffixes, each
below the suffix without its first label, with the vertex `-` as the root.
-/

import Packetpig.Library.RootedTree
import Packetpig.Ubigraph.Dns

namespace Packetpig.Ubigraph

open Text

structure DnsRow where
  line : Bytes
  domain : Bytes
  fourth : (line.splitOn comma)[3]? = some domain

def labelsOf (domain : Bytes) : List Bytes := domain.splitOn dot

/-- The suffixes of the domains as lists of labels; the root has none. -/
def Suffix (domains : List Bytes) (labels : List Bytes) : Prop :=
  labels = [] ∨ ∃ domain ∈ domains, labels <:+ labelsOf domain

/-- The text by which the script knows a suffix: its labels, then `-`. -/
def key (labels : List Bytes) : Bytes := Dns.join (labels ++ [ascii "-"])

def Plain (labels : List Bytes) : Prop := ∀ label ∈ labels, dot ∉ label

theorem key_injective {labels other : List Bytes} (plain : Plain labels) (plain' : Plain other)
    (same : key labels = key other) : labels = other := by
  have split : ∀ labels, Plain labels → (key labels).splitOn dot = labels ++ [ascii "-"] := by
    intro labels plain
    apply List.splitOn_intercalate
    · intro piece member
      rcases List.mem_append.mp member with label | last
      · exact plain piece label
      · rw [List.mem_singleton.mp last]
        decide
    · simp
  have pieces := split labels plain
  rw [same, split other plain'] at pieces
  exact (List.append_cancel_right pieces).symm

/-- The drawn vertices with the drawn edges, without directions and repetitions. -/
def Dns.graph (dns : Dns) : SimpleGraph { id // id ∈ dns.ids } :=
  SimpleGraph.fromRel fun left right => (left.val, right.val) ∈ dns.edges

/-- `vertex` is where the script draws each suffix. -/
structure DrawsTree (domains : List Bytes) (dns : Dns) (vertex : List Bytes → Nat) : Prop where
  named : ∀ labels, Suffix domains labels → dns.names.lookup (key labels) = some (vertex labels)
  vertices : Set.BijOn vertex { labels | Suffix domains labels } { id | id ∈ dns.ids }
  once : dns.ids.Nodup
  edges : ∀ edge ∈ dns.edges, ∃ label labels, Suffix domains (label :: labels) ∧
    edge = (vertex (label :: labels), vertex labels)
  root : ∀ labels, Suffix domains labels →
    Relation.ReflTransGen (fun left right => (left, right) ∈ dns.edges) (vertex labels) (vertex [])
  tree : dns.graph.IsTree

structure Named (seen : List Bytes → Prop) (dns : Dns) : Prop where
  plain : ∀ {labels}, seen labels → Plain labels
  found : ∀ {labels}, seen labels → ∃ id, dns.names.lookup (key labels) = some id
  only : ∀ {name id}, dns.names.lookup name = some id →
    (∃ labels, seen labels ∧ name = key labels) ∧ id ∈ dns.ids
  injective : ∀ {name other id}, dns.names.lookup name = some id →
    dns.names.lookup other = some id → name = other
  drawn : ∀ {id}, id ∈ dns.ids → ∃ name, dns.names.lookup name = some id
  once : dns.ids.Nodup

structure Visited (labels : List Bytes) (before : Dns) (id : Nat) (after : Dns) : Prop where
  named : ∀ {seen}, Plain labels → Named seen before →
    Named (fun other => seen other ∨ other = labels) after
  found : after.names.lookup (key labels) = some id
  kept : ∀ {name id}, before.names.lookup name = some id → after.names.lookup name = some id
  edges : after.edges = before.edges

private theorem Named.congr {seen seen' : List Bytes → Prop} {dns : Dns} (named : Named seen dns)
    (same : ∀ labels, seen labels ↔ seen' labels) : Named seen' dns := by
  have equal : seen = seen' := funext fun labels => propext (same labels)
  rwa [← equal]

private theorem Named.seen_of_lookup {seen : List Bytes → Prop} {dns : Dns}
    (named : Named seen dns) {labels : List Bytes} (plain : Plain labels) {id : Nat}
    (found : dns.names.lookup (key labels) = some id) : seen labels := by
  rcases (named.only found).1 with ⟨other, isSeen, same⟩
  rwa [key_injective plain (named.plain isSeen) same]

private theorem visited_of_cached {labels : List Bytes} {dns : Dns} {id : Nat}
    (found : dns.names.lookup (key labels) = some id) : Visited labels dns id dns where
  named plain named := by
    apply named.congr
    intro other
    constructor
    · exact Or.inl
    · intro either
      rcases either with isSeen | same
      · exact isSeen
      · rw [same]
        exact named.seen_of_lookup plain found
  found := found
  kept found := found
  edges := rfl

private theorem visited_of_new {labels : List Bytes} {before after : Dns} {id : Nat}
    (absent : before.names.lookup (key labels) = none) (fresh : id ∉ before.ids)
    (names : after.names = before.names.insert (key labels) id)
    (ids : after.ids = id :: before.ids) (edges : after.edges = before.edges) :
    Visited labels before id after := by
  have atKey : after.names.lookup (key labels) = some id := by
    rw [names, AList.lookup_insert]
  have elsewhere : ∀ {name}, name ≠ key labels →
      after.names.lookup name = before.names.lookup name := by
    intro name different
    rw [names, AList.lookup_insert_ne different]
  refine ⟨?_, atKey, ?_, edges⟩
  · intro seen plain named
    have old : ∀ {name other}, name ≠ key labels → after.names.lookup name = some other →
        before.names.lookup name = some other ∧ other ≠ id := by
      intro name other different found
      rw [elsewhere different] at found
      refine ⟨found, ?_⟩
      intro same
      rw [same] at found
      exact fresh (named.only found).2
    constructor
    · intro other isSeen
      rcases isSeen with before | same
      · exact named.plain before
      · rwa [same]
    · intro other isSeen
      by_cases same : key other = key labels
      · rw [same]
        exact ⟨id, atKey⟩
      · rw [elsewhere same]
        rcases isSeen with before | equal
        · exact named.found before
        · exact absurd (congrArg key equal) same
    · intro name other found
      rw [ids, List.mem_cons]
      by_cases same : name = key labels
      · rw [same, atKey, Option.some.injEq] at found
        exact ⟨⟨labels, Or.inr rfl, same⟩, Or.inl found.symm⟩
      · rcases named.only (old same found).1 with ⟨⟨sections, isSeen, spelled⟩, member⟩
        exact ⟨⟨sections, Or.inl isSeen, spelled⟩, Or.inr member⟩
    · intro name other vertex found found'
      by_cases same : name = key labels
      · by_cases same' : other = key labels
        · exact same.trans same'.symm
        · rw [same, atKey, Option.some.injEq] at found
          exact absurd found.symm (old same' found').2
      · by_cases same' : other = key labels
        · rw [same', atKey, Option.some.injEq] at found'
          exact absurd found'.symm (old same found).2
        · exact named.injective (old same found).1 (old same' found').1
    · intro vertex member
      rw [ids, List.mem_cons] at member
      rcases member with same | member
      · exact ⟨key labels, by rw [same]; exact atKey⟩
      · rcases named.drawn member with ⟨name, found⟩
        refine ⟨name, (elsewhere ?_).trans found⟩
        intro same
        rw [same, absent] at found
        cases found
    · rw [ids]
      exact List.nodup_cons.mpr ⟨fresh, named.once⟩
  · intro name other found
    by_cases same : name = key labels
    · rw [same, absent] at found
      cases found
    · rwa [elsewhere same]

theorem visited_cachedNode (server : Server) (dns : Dns) (labels : List Bytes) :
    Visited labels dns (Dns.cachedNode server dns (key labels)).1
      (Dns.cachedNode server dns (key labels)).2 := by
  unfold Dns.cachedNode
  cases found : dns.names.lookup (key labels) with
  | some vertex => exact visited_of_cached found
  | none => exact visited_of_new found (server.newVertex_fresh dns.ids) rfl rfl rfl

/-! ### One row -/

def Joins (dns : Dns) (edge : Nat × Nat) (label : Bytes) (labels : List Bytes) : Prop :=
  dns.names.lookup (key (label :: labels)) = some edge.1 ∧
    dns.names.lookup (key labels) = some edge.2

/-- Every suffix with a label has its edge, but for the one that is drawn next. -/
structure Linked (seen : List Bytes → Prop) (pending : List Bytes) (dns : Dns) : Prop where
  named : Named seen dns
  edges : ∀ edge ∈ dns.edges, ∃ label labels, seen (label :: labels) ∧ seen labels ∧
    Joins dns edge label labels
  linked : ∀ {label labels}, seen (label :: labels) →
    label :: labels = pending ∨ ∃ edge ∈ dns.edges, Joins dns edge label labels

private theorem Linked.congr {seen seen' : List Bytes → Prop} {pending : List Bytes} {dns : Dns}
    (linked : Linked seen pending dns) (same : ∀ labels, seen labels ↔ seen' labels) :
    Linked seen' pending dns := by
  have equal : seen = seen' := funext fun labels => propext (same labels)
  rwa [← equal]

private theorem plain_tail {label : Bytes} {labels : List Bytes} (plain : Plain (label :: labels)) :
    Plain labels :=
  fun other member => plain other (List.mem_cons_of_mem label member)

theorem linked_node (server : Server) {seen : List Bytes → Prop} {pending : List Bytes}
    {dns : Dns} (linked : Linked seen pending dns) {label : Bytes} {labels : List Bytes}
    (plain : Plain (label :: labels)) (next : pending = [] ∨ pending = label :: labels) (s : Nat) :
    Linked (fun other => (seen other ∨ other = label :: labels) ∨ other = labels) labels
      (Dns.node server dns (key (label :: labels)) (key labels) s) := by
  have first := visited_cachedNode server dns (label :: labels)
  have second := visited_cachedNode server
    (Dns.cachedNode server dns (key (label :: labels))).2 labels
  unfold Dns.node
  generalize Dns.cachedNode server dns (key (label :: labels)) = answer at first second ⊢
  rcases answer with ⟨frn, between⟩
  dsimp only at first second ⊢
  generalize Dns.cachedNode server between (key labels) = answer at second ⊢
  rcases answer with ⟨ton, after⟩
  dsimp only at second ⊢
  have edges : after.edges = dns.edges := second.edges.trans first.edges
  have named := second.named (plain_tail plain) (first.named plain linked.named)
  have kept : ∀ {edge label labels}, Joins dns edge label labels →
      Joins { after with edges := after.edges ++ [(frn, ton)] } edge label labels := by
    intro edge label labels joins
    exact ⟨second.kept (first.kept joins.1), second.kept (first.kept joins.2)⟩
  have new : Joins { after with edges := after.edges ++ [(frn, ton)] } (frn, ton) label labels :=
    ⟨second.kept first.found, second.found⟩
  refine ⟨⟨named.plain, named.found, named.only, named.injective, named.drawn, named.once⟩, ?_, ?_⟩
  · intro edge member
    rw [List.mem_append, edges, List.mem_singleton] at member
    rcases member with old | same
    · rcases linked.edges edge old with ⟨child, above, isSeen, isSeen', joins⟩
      exact ⟨child, above, Or.inl (Or.inl isSeen), Or.inl (Or.inl isSeen'), kept joins⟩
    · rw [same]
      exact ⟨label, labels, Or.inl (Or.inr rfl), Or.inr rfl, new⟩
  · intro child above isSeen
    rw [edges]
    by_cases here : child :: above = label :: labels
    · rw [List.cons.injEq] at here
      rw [here.1, here.2]
      exact Or.inr ⟨_, List.mem_append_right _ (List.mem_singleton_self _), new⟩
    · rcases isSeen with (before | same) | same
      · rcases linked.linked before with waiting | joined
        · rw [waiting] at here
          rcases next with none | same
          · rw [none] at waiting
            cases waiting
          · exact absurd same here
        · rcases joined with ⟨edge, member, joins⟩
          exact Or.inr ⟨edge, List.mem_append_left _ member, kept joins⟩
      · exact absurd same here
      · exact Or.inl same

private theorem linked_loop (server : Server) (labels : List Bytes) :
    ∀ (label : Bytes) (seen : List Bytes → Prop) (pending : List Bytes) (dns : Dns) (s : Nat → Nat),
      Linked seen pending dns → Plain (label :: labels) →
      (pending = [] ∨ pending = label :: labels) →
      Linked (fun other => seen other ∨ other <:+ label :: labels) []
        ((List.range (labels.length + 1)).foldl
          (fun dns a =>
            Dns.node server dns (Dns.join ((label :: labels ++ [ascii "-"]).drop a))
              (Dns.join ((label :: labels ++ [ascii "-"]).drop (a + 1))) (s a))
          dns) := by
  induction labels with
  | nil =>
      intro label seen pending dns s linked plain next
      apply (linked_node server linked plain next (s 0)).congr
      intro other
      rw [List.suffix_cons_iff, List.suffix_nil]
      exact or_assoc
  | cons second labels ih =>
      intro label seen pending dns s linked plain next
      have node := linked_node server linked plain next (s 0)
      have rest := ih second _ _ _ (fun a => s (a + 1)) node (plain_tail plain) (Or.inr rfl)
      rw [List.length_cons, List.range_succ_eq_map, List.foldl_cons, List.foldl_map]
      apply rest.congr
      intro other
      rw [List.suffix_cons_iff (a := label)]
      constructor
      · intro either
        rcases either with ((before | same) | same) | later
        · exact Or.inl before
        · exact Or.inr (Or.inl same)
        · rw [same]
          exact Or.inr (Or.inr (List.suffix_refl _))
        · exact Or.inr (Or.inr later)
      · intro either
        rcases either with before | same | later
        · exact Or.inl (Or.inl (Or.inl before))
        · exact Or.inl (Or.inl (Or.inr same))
        · exact Or.inr later

private theorem plain_labelsOf (domain : Bytes) : Plain (labelsOf domain) :=
  fun _ member => (mem_splitOn member).1

theorem linked_addDomain (server : Server) {seen : List Bytes → Prop} {dns : Dns}
    (linked : Linked seen [] dns) (domain : Bytes) :
    Linked (fun labels => seen labels ∨ labels <:+ labelsOf domain) []
      (Dns.addDomain server dns domain) := by
  have plain := plain_labelsOf domain
  unfold Dns.addDomain
  dsimp only
  obtain ⟨label, labels, shape⟩ :=
    List.exists_cons_of_ne_nil (List.splitOn_ne_nil dot domain)
  unfold labelsOf at plain ⊢
  rw [shape] at plain ⊢
  have count : (label :: labels ++ [ascii "-"]).length - 1 = labels.length + 1 := by simp
  rw [count]
  exact linked_loop server labels label seen [] dns _ linked plain (Or.inl rfl)

def DnsRow.lines (rows : List DnsRow) : List Bytes := rows.map DnsRow.line

def DnsRow.domains (rows : List DnsRow) : List Bytes := rows.map DnsRow.domain

private theorem linked_rows (server : Server) (rows : List DnsRow) :
    ∀ (seen : List Bytes → Prop) (dns : Dns), Linked seen [] dns →
      ∃ final, (DnsRow.lines rows).foldlM (Dns.add server) dns = .ok final ∧
        Linked (fun labels => seen labels ∨
          ∃ domain ∈ DnsRow.domains rows, labels <:+ labelsOf domain) [] final := by
  induction rows with
  | nil =>
      intro seen dns linked
      refine ⟨dns, rfl, linked.congr ?_⟩
      intro labels
      simp [DnsRow.domains]
  | cons row rows ih =>
      intro seen dns linked
      rcases ih _ _ (linked_addDomain server linked row.domain) with ⟨final, done, rest⟩
      refine ⟨final, ?_, rest.congr ?_⟩
      · have added : Dns.add server dns row.line = .ok (Dns.addDomain server dns row.domain) := by
          simp only [Dns.add, row.fourth]
        change (Dns.add server dns row.line >>= _) = _
        rw [added]
        exact done
      · intro labels
        simp only [DnsRow.domains, List.map_cons, List.exists_mem_cons_iff]
        exact or_assoc

private theorem linked_init : Linked (fun _ => False) [] Dns.init where
  named :=
    { plain := False.elim
      found := False.elim
      only := by
        intro name id found
        cases found
      injective := by
        intro name other id found
        cases found
      drawn := by
        intro id member
        cases member
      once := List.nodup_nil }
  edges := by
    intro edge member
    cases member
  linked := False.elim

/-! ### The tree -/

section Tree

variable {domains : List Bytes} {dns : Dns}

private theorem suffix_tail {label : Bytes} {labels : List Bytes}
    (suffix : Suffix domains (label :: labels)) : Suffix domains labels := by
  rcases suffix with nothing | ⟨domain, member, isSuffix⟩
  · cases nothing
  · exact Or.inr ⟨domain, member, (List.suffix_cons label labels).trans isSuffix⟩

def vertexOf (dns : Dns) (labels : List Bytes) : Nat :=
  (dns.names.lookup (key labels)).getD 0

private theorem lookup_vertexOf (named : Named (Suffix domains) dns) {labels : List Bytes}
    (suffix : Suffix domains labels) :
    dns.names.lookup (key labels) = some (vertexOf dns labels) := by
  rcases named.found suffix with ⟨id, found⟩
  rw [vertexOf, found]
  rfl

private theorem vertexOf_bijOn (named : Named (Suffix domains) dns) :
    Set.BijOn (vertexOf dns) { labels | Suffix domains labels } { id | id ∈ dns.ids } := by
  refine ⟨?_, ?_, ?_⟩
  · intro labels suffix
    exact (named.only (lookup_vertexOf named suffix)).2
  · intro labels suffix other suffix' same
    have found := lookup_vertexOf named suffix
    rw [same] at found
    exact key_injective (named.plain suffix) (named.plain suffix')
      (named.injective found (lookup_vertexOf named suffix'))
  · intro id member
    rcases named.drawn member with ⟨name, found⟩
    rcases (named.only found).1 with ⟨labels, suffix, same⟩
    refine ⟨labels, suffix, ?_⟩
    rw [same, lookup_vertexOf named suffix] at found
    exact Option.some.inj found

private theorem Joins.eq_vertexOf {edge : Nat × Nat} {label : Bytes} {labels : List Bytes}
    (joins : Joins dns edge label labels) :
    edge = (vertexOf dns (label :: labels), vertexOf dns labels) := by
  rcases joins with ⟨first, second⟩
  rw [vertexOf, vertexOf, first, second]
  rfl

private theorem edge_mem (linked : Linked (Suffix domains) [] dns) {label : Bytes}
    {labels : List Bytes} (suffix : Suffix domains (label :: labels)) :
    (vertexOf dns (label :: labels), vertexOf dns labels) ∈ dns.edges := by
  rcases linked.linked suffix with nothing | ⟨edge, member, joins⟩
  · cases nothing
  · rwa [← joins.eq_vertexOf]

private theorem reaches_root (linked : Linked (Suffix domains) [] dns) {labels : List Bytes}
    (suffix : Suffix domains labels) :
    Relation.ReflTransGen (fun left right => (left, right) ∈ dns.edges) (vertexOf dns labels)
      (vertexOf dns []) := by
  induction labels with
  | nil => exact .refl
  | cons label labels ih => exact .head (edge_mem linked suffix) (ih (suffix_tail suffix))

private theorem parentRelation (linked : Linked (Suffix domains) [] dns)
    (root : { id // id ∈ dns.ids }) (atRoot : root.val = vertexOf dns []) :
    ParentRelation (fun left right : { id // id ∈ dns.ids } => (left.val, right.val) ∈ dns.edges)
      root (fun id =>
        (Function.invFunOn (vertexOf dns) { labels | Suffix domains labels } id).length) := by
  have bijective := vertexOf_bijOn linked.named
  have inverse := bijective.injOn.leftInvOn_invFunOn
  have spelled : ∀ {left right : { id // id ∈ dns.ids }}, (left.val, right.val) ∈ dns.edges →
      ∃ label labels, Suffix domains (label :: labels) ∧
        left.val = vertexOf dns (label :: labels) ∧ right.val = vertexOf dns labels := by
    intro left right member
    rcases linked.edges _ member with ⟨label, labels, suffix, -, joins⟩
    have same := joins.eq_vertexOf
    rw [Prod.mk.injEq] at same
    exact ⟨label, labels, suffix, same.1, same.2⟩
  constructor
  · intro child above member
    rcases spelled member with ⟨label, labels, suffix, atChild, atAbove⟩
    rw [atChild, atAbove, inverse suffix, inverse (suffix_tail suffix)]
    exact Nat.lt_succ_self _
  · intro child above other member member'
    rcases spelled member with ⟨label, labels, suffix, atChild, atAbove⟩
    rcases spelled member' with ⟨label', labels', suffix', atChild', atAbove'⟩
    have same := bijective.injOn suffix suffix' (atChild.symm.trans atChild')
    rw [List.cons.injEq] at same
    apply Subtype.ext
    rw [atAbove, atAbove', same.2]
  · intro child notRoot
    rcases bijective.surjOn child.property with ⟨labels, suffix, same⟩
    cases labels with
    | nil => exact absurd (Subtype.ext (same.symm.trans atRoot.symm)) notRoot
    | cons label labels =>
        refine ⟨⟨vertexOf dns labels, bijective.mapsTo (suffix_tail suffix)⟩, ?_⟩
        rw [← same]
        exact edge_mem linked suffix

private theorem drawsTree_of_linked (linked : Linked (Suffix domains) [] dns) :
    DrawsTree domains dns (vertexOf dns) where
  named _ := lookup_vertexOf linked.named
  vertices := vertexOf_bijOn linked.named
  once := linked.named.once
  edges edge member := by
    rcases linked.edges edge member with ⟨label, labels, suffix, -, joins⟩
    exact ⟨label, labels, suffix, joins.eq_vertexOf⟩
  root _ := reaches_root linked
  tree := by
    have member : vertexOf dns [] ∈ dns.ids :=
      (vertexOf_bijOn linked.named).mapsTo (Or.inl rfl)
    exact (parentRelation linked ⟨_, member⟩ rfl).isTree

end Tree

/-- Any nonempty sequence of rows draws the tree of its domain suffixes. -/
theorem addAll_draws_tree (server : Server) (first : DnsRow) (rows : List DnsRow) :
    ∃ final vertex, Dns.addAll server (DnsRow.lines (first :: rows)) = .ok final ∧
      DrawsTree (DnsRow.domains (first :: rows)) final vertex := by
  rcases linked_rows server (first :: rows) _ _ linked_init with ⟨final, done, linked⟩
  refine ⟨final, vertexOf final, done, drawsTree_of_linked (linked.congr ?_)⟩
  intro labels
  rw [false_or, Suffix]
  constructor
  · exact Or.inr
  · intro suffix
    rcases suffix with nothing | found
    · rw [nothing]
      exact ⟨first.domain, List.mem_cons_self, List.nil_suffix⟩
    · exact found

def countingServer : Server where
  newVertex ids := ids.sum + 1
  newVertex_fresh ids member := by
    have bound := List.single_le_sum (fun _ _ => Nat.zero_le _) _ member
    omega
  color _ := []
  size _ := []

/-- Without any row not even the root is drawn. -/
theorem no_rows_draw_no_root :
    ¬ ∃ final vertex, Dns.addAll countingServer (DnsRow.lines []) = .ok final ∧
      DrawsTree (DnsRow.domains []) final vertex := by
  intro drawn
  rcases drawn with ⟨final, vertex, done, tree⟩
  cases done
  cases tree.named [] (Or.inl rfl)

end Packetpig.Ubigraph
