import Mathlib.Data.Fintype.Card
import Mathlib.Data.List.Nodup
import Mathlib.Logic.Relation
import Mathlib.Order.WellFounded
import Mathlib.Data.Set.Finite.Basic
import Mathlib.Data.List.Perm.Basic

universe u v w

/-- Edges that act on the value of their target, given the value of their source. -/
structure Dataflow (ν : Type u) (ε : Type v) (α : Type w) where
  edges : List ε
  source : ε → ν
  target : ε → ν
  effect : ε → α → α → α

namespace Dataflow

variable {ν : Type u} {ε : Type v} {α : Type w}

def Feeds (G : Dataflow ν ε α) (a b : ν) : Prop := ∃ e ∈ G.edges, G.source e = a ∧ G.target e = b

/-- No node feeds itself along a path. -/
def Acyclic (G : Dataflow ν ε α) : Prop := ∀ n, ¬ Relation.TransGen G.Feeds n n

/-- A rank that grows along every edge excludes cycles. -/
theorem Acyclic.of_rank {G : Dataflow ν ε α} (rank : ν → ℕ)
    (grows : ∀ e ∈ G.edges, rank (G.source e) < rank (G.target e)) : G.Acyclic := by
  have along : ∀ a b, Relation.TransGen G.Feeds a b → rank a < rank b := by
    intro a b path
    induction path with
    | single feeds =>
      obtain ⟨e, member, rfl, rfl⟩ := feeds
      exact grows e member
    | tail _ feeds ih =>
      obtain ⟨e, member, rfl, rfl⟩ := feeds
      exact ih.trans (grows e member)
  exact fun n loop => (along n n loop).false

/-- Only the finitely many targets of edges have anything below them, so
that a path that never ends would meet one of them twice. -/
theorem Acyclic.wellFounded {G : Dataflow ν ε α} (acyclic : G.Acyclic) : WellFounded G.Feeds := by
  let targets := {n : ν // n ∈ G.edges.map G.target}
  let below : targets → targets → Prop := fun a b => Relation.TransGen G.Feeds a.1 b.1
  have : Finite targets := List.finite_toSet (G.edges.map G.target)
  have : IsTrans targets below := ⟨fun _ _ _ left right => left.trans right⟩
  have : Std.Irrefl below := ⟨fun a loop => acyclic a.1 loop⟩
  have founded : WellFounded below := Finite.wellFounded_of_trans_of_irrefl below
  have accTarget : ∀ a : targets, Acc G.Feeds a.1 := by
    intro a
    induction a using founded.induction with
    | _ a ih =>
      refine ⟨_, fun n feeds => ?_⟩
      by_cases isTarget : n ∈ G.edges.map G.target
      · exact ih ⟨n, isTarget⟩ (.single feeds)
      · refine ⟨_, fun m ⟨e, member, _, target⟩ => ?_⟩
        exact absurd (List.mem_map.mpr ⟨e, member, target⟩) isTarget
  refine ⟨fun n => ⟨_, fun m feeds => ?_⟩⟩
  by_cases isTarget : m ∈ G.edges.map G.target
  · exact accTarget ⟨m, isTarget⟩
  · refine ⟨_, fun k ⟨e, member, _, target⟩ => ?_⟩
    exact absurd (List.mem_map.mpr ⟨e, member, target⟩) isTarget

/-- A list of nodes in which every node comes after all nodes that feed it. -/
def Sorted (G : Dataflow ν ε α) (order : List ν) : Prop :=
  ∀ before n after, order = before ++ n :: after → ∀ e ∈ G.edges, G.target e = n → G.source e ∈ before

theorem Sorted.nil (G : Dataflow ν ε α) : G.Sorted [] := by
  intro before n after split
  simp at split

theorem Sorted.concat {G : Dataflow ν ε α} {order : List ν} {n : ν} (sorted : G.Sorted order)
    (fed : ∀ e ∈ G.edges, G.target e = n → G.source e ∈ order) : G.Sorted (order ++ [n]) := by
  intro before m after split e member target
  rcases List.eq_nil_or_concat after with rfl | ⟨rest, last, rfl⟩
  · obtain ⟨sameOrder, sameNode⟩ := List.append_inj' split rfl
    cases sameNode
    exact sameOrder ▸ fed e member target
  · have regroup : order ++ [n] = (before ++ m :: rest) ++ [last] := by simpa using split
    exact sorted before m rest (List.append_inj' regroup rfl).1 e member target

theorem Sorted.of_concat {G : Dataflow ν ε α} {order : List ν} {n : ν} (sorted : G.Sorted (order ++ [n])) :
    G.Sorted order ∧ ∀ e ∈ G.edges, G.target e = n → G.source e ∈ order := by
  refine ⟨?_, sorted order n [] rfl⟩
  rintro before m after rfl
  exact sorted before m (after ++ [n]) (by simp)

variable [DecidableEq ν]

/-- In a sorted list the source of an edge comes before its target. -/
theorem Sorted.idxOf_lt {G : Dataflow ν ε α} {order : List ν} (sorted : G.Sorted order) (distinct : order.Nodup) {e : ε}
    (edge : e ∈ G.edges) (listed : G.target e ∈ order) : order.idxOf (G.source e) < order.idxOf (G.target e) := by
  obtain ⟨before, after, split⟩ := List.append_of_mem listed
  have earlier := sorted before _ after split e edge rfl
  rw [split] at distinct ⊢
  have fresh : G.target e ∉ before := fun member => (List.nodup_append'.mp distinct).2.2 member List.mem_cons_self
  rw [List.idxOf_append_of_mem earlier, List.idxOf_append_of_notMem fresh, List.idxOf_cons_self, Nat.add_zero]
  exact List.idxOf_lt_length_of_mem earlier

/-- A sorted list of all targets excludes cycles. -/
theorem Sorted.acyclic {G : Dataflow ν ε α} {order : List ν} (sorted : G.Sorted order) (distinct : order.Nodup)
    (covers : ∀ e ∈ G.edges, G.target e ∈ order) : G.Acyclic :=
  .of_rank order.idxOf fun e edge => sorted.idxOf_lt distinct edge (covers e edge)

def inbound (G : Dataflow ν ε α) (n : ν) : List ε := G.edges.filter (fun e => G.target e = n)

theorem mem_inbound {G : Dataflow ν ε α} {n : ν} {e : ε} :
    e ∈ G.inbound n ↔ e ∈ G.edges ∧ G.target e = n := by
  simp [inbound]

/-- The recursive meaning of an acyclic network: the edges into a node, in
their order, act on its seed with the final values of their sources. -/
noncomputable def value (G : Dataflow ν ε α) (founded : WellFounded G.Feeds) (seed : ν → α) : ν → α :=
  founded.fix fun n upstream =>
    (G.inbound n).attach.foldl
      (fun acc e => G.effect e.1 (upstream (G.source e.1) ⟨e.1, (mem_inbound.mp e.2).1, rfl, (mem_inbound.mp e.2).2⟩) acc)
      (seed n)

theorem value_eq (G : Dataflow ν ε α) (founded : WellFounded G.Feeds) (seed : ν → α) (n : ν) :
    G.value founded seed n =
      (G.inbound n).foldl (fun acc e => G.effect e (G.value founded seed (G.source e)) acc) (seed n) := by
  rw [value, founded.fix_eq]
  exact List.foldl_attach (f := fun acc e => G.effect e (G.value founded seed (G.source e)) acc)

theorem value_unique (G : Dataflow ν ε α) (founded : WellFounded G.Feeds) {seed f : ν → α}
    (recursion : ∀ n, f n = (G.inbound n).foldl (fun acc e => G.effect e (f (G.source e)) acc) (seed n)) :
    f = G.value founded seed := by
  funext n
  induction n using founded.induction with
  | _ n ih =>
    rw [recursion n, value_eq]
    apply List.foldl_ext
    intro acc e member
    rw [ih (G.source e) ⟨e, (mem_inbound.mp member).1, rfl, (mem_inbound.mp member).2⟩]

/-- A set of nodes that is closed under what feeds it has its values decided
by the edges and the seeds inside the set. -/
theorem value_congr {G H : Dataflow ν ε α} (founded : WellFounded G.Feeds) (founded' : WellFounded H.Feeds)
    {seed seed' : ν → α} (closed : ν → Prop)
    (sameSource : G.source = H.source) (sameEffect : G.effect = H.effect)
    (sameInbound : ∀ n, closed n → G.inbound n = H.inbound n) (sameSeed : ∀ n, closed n → seed n = seed' n)
    (upstream : ∀ a b, G.Feeds a b → closed b → closed a) (n : ν) (inside : closed n) :
    G.value founded seed n = H.value founded' seed' n := by
  induction n using founded.induction with
  | _ n ih =>
    rw [value_eq, value_eq, ← sameInbound n inside, ← sameSeed n inside, ← sameSource, ← sameEffect]
    apply List.foldl_ext
    intro acc e member
    have feeds : G.Feeds (G.source e) n := ⟨e, (mem_inbound.mp member).1, rfl, (mem_inbound.mp member).2⟩
    rw [ih (G.source e) feeds (upstream _ _ feeds inside)]

/-- One edge acts in place. -/
def step (G : Dataflow ν ε α) (values : ν → α) (e : ε) : ν → α :=
  Function.update values (G.target e) (G.effect e (values (G.source e)) (values (G.target e)))

/-- All edges into the nodes of a list act in place, node after node. -/
def pass (G : Dataflow ν ε α) (order : List ν) (values : ν → α) : ν → α :=
  order.foldl (fun values n => (G.inbound n).foldl G.step values) values

theorem pass_eq_foldl (G : Dataflow ν ε α) (order : List ν) (values : ν → α) :
    G.pass order values = (order.flatMap G.inbound).foldl G.step values :=
  List.foldl_flatMap.symm

/-- Node after node, each edge into a node of the list has its turn once. -/
theorem flatMap_inbound_perm (G : Dataflow ν ε α) {order : List ν} (distinct : order.Nodup)
    (covers : ∀ e ∈ G.edges, G.target e ∈ order) : (order.flatMap G.inbound).Perm G.edges := by
  have general : ∀ (order : List ν), order.Nodup → ∀ edges : List ε,
      (order.flatMap fun n => edges.filter fun e => G.target e = n).Perm (edges.filter fun e => G.target e ∈ order) := by
    intro order
    induction order with
    | nil => simp
    | cons n order ih =>
      intro distinct edges
      obtain ⟨fresh, rest⟩ := List.nodup_cons.mp distinct
      have split := List.filter_append_perm (fun e => decide (G.target e = n))
        (edges.filter fun e => G.target e ∈ n :: order)
      have first : (edges.filter fun e => G.target e ∈ n :: order).filter (fun e => decide (G.target e = n)) =
          edges.filter fun e => G.target e = n := by
        rw [List.filter_filter]
        refine List.filter_congr fun e _ => ?_
        by_cases here : G.target e = n <;> simp [here]
      have others : (edges.filter fun e => G.target e ∈ n :: order).filter (fun e => !decide (G.target e = n)) =
          edges.filter fun e => G.target e ∈ order := by
        rw [List.filter_filter]
        refine List.filter_congr fun e _ => ?_
        by_cases here : G.target e = n
        · simp [here, fresh]
        · simp [here]
      rw [first, others] at split
      rw [List.flatMap_cons]
      exact ((ih rest edges).append_left _).trans split
  have all : (G.edges.filter fun e => G.target e ∈ order) = G.edges :=
    List.filter_eq_self.mpr fun e edge => decide_eq_true (covers e edge)
  exact all ▸ general order distinct G.edges

/-- A node that is forced to its value leaves all values as they are: it is
enough that its inbound edges are gone and the other nodes keep theirs. -/
theorem value_forced {G H : Dataflow ν ε α} (founded : WellFounded G.Feeds) (founded' : WellFounded H.Feeds)
    {seed : ν → α} {node : ν} (sameSource : G.source = H.source) (sameEffect : G.effect = H.effect)
    (severed : H.inbound node = []) (sameInbound : ∀ n, n ≠ node → H.inbound n = G.inbound n) :
    H.value founded' (Function.update seed node (G.value founded seed node)) = G.value founded seed := by
  refine (H.value_unique founded' fun n => ?_).symm
  by_cases here : n = node
  · subst here
    rw [severed, List.foldl_nil, Function.update_self]
  · rw [sameInbound n here, Function.update_of_ne here, ← sameSource, ← sameEffect, ← value_eq]

/-- The edges into one node, none of them a loop, fold over the value of the
node and change nothing else. -/
theorem foldl_step (G : Dataflow ν ε α) (n : ν) (es : List ε) (into : ∀ e ∈ es, G.target e = n)
    (noLoop : ∀ e ∈ es, G.source e ≠ n) (values : ν → α) :
    es.foldl G.step values =
      Function.update values n (es.foldl (fun acc e => G.effect e (values (G.source e)) acc) (values n)) := by
  induction es generalizing values with
  | nil => simp
  | cons e es ih =>
    have target := into e List.mem_cons_self
    rw [List.foldl_cons, ih (fun e' member => into e' (List.mem_cons_of_mem _ member))
      (fun e' member => noLoop e' (List.mem_cons_of_mem _ member)), List.foldl_cons]
    simp only [step, target, Function.update_self, Function.update_idem]
    congr 1
    apply List.foldl_ext
    intro acc e' member
    rw [Function.update_of_ne (noLoop e' (List.mem_cons_of_mem _ member))]

/-- One pass in any sorted order computes the recursive meaning: the values
read at a node are those of nodes that are already finished. -/
theorem pass_eq_value (G : Dataflow ν ε α) (founded : WellFounded G.Feeds) (seed : ν → α) {order : List ν}
    (distinct : order.Nodup) (sorted : G.Sorted order) (n : ν) :
    G.pass order seed n = if n ∈ order then G.value founded seed n else seed n := by
  induction order using List.reverseRecOn generalizing n with
  | nil => simp [pass]
  | append_singleton order last ih =>
    obtain ⟨restSorted, fed⟩ := sorted.of_concat
    have restDistinct := (List.nodup_append'.mp distinct).1
    have fresh : last ∉ order := by
      have disjoint := (List.nodup_append'.mp distinct).2.2
      simpa using disjoint
    have finished := ih restDistinct restSorted
    have expand : G.pass (order ++ [last]) seed = (G.inbound last).foldl G.step (G.pass order seed) := by
      simp [pass]
    have sourceBefore : ∀ e ∈ G.inbound last, G.source e ∈ order := by
      intro e member
      exact fed e (mem_inbound.mp member).1 (mem_inbound.mp member).2
    rw [expand, G.foldl_step last _ (fun e member => (mem_inbound.mp member).2)
      (fun e member same => fresh (same ▸ sourceBefore e member))]
    by_cases here : n = last
    · subst here
      rw [Function.update_self, if_pos (by simp), value_eq, finished n, if_neg fresh]
      apply List.foldl_ext
      intro acc e member
      rw [finished (G.source e), if_pos (sourceBefore e member)]
    · rw [Function.update_of_ne here, finished n]
      simp [here]

end Dataflow
