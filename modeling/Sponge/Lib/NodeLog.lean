import Mathlib.Data.List.Nodup
import Sponge.Lib.LinkedList

/-!
# The log of a linked list

The events that the loops over a linked list log are each about one node, and
some of them mean that the node is being removed. A body is tidy when it logs
events about the node under the iterator only, and logs a removal if and only if
it erases the node, as the last thing that is logged about it.

Under tidy bodies the log tells which nodes are in the list: every node that was
ever linked in is there until its removal is logged, that happens at most once,
and nothing is logged about the node afterwards.
-/

namespace LinkedList

universe u

variable {α ε : Type u} {W E X : Type*} (about : E → Nat) (removes : E → Bool)

/-- The log has a removal of the node with that number. -/
def removed (log : List E) (n : Nat) : Bool := log.any fun e => removes e && about e == n

/-- What a tidy body does at the node `x`. -/
structure Tidy (x : Node α) (d : Done α W E X (Fate ε)) : Prop where
  own : ∀ e ∈ d.events, about e = x.id
  erased : d.result = .ok .erase → ∃ e, d.events = [e] ∧ removes e
  kept : d.result ≠ .ok .erase → ∀ e ∈ d.events, removes e = false

/-- The list holds the nodes that the log does not say are removed, and nothing is
logged about a node after its removal. -/
structure Settled (l : LinkedList α) (log : List E) : Prop where
  present : ∀ n < l.next, n ∈ l.nodes.map (·.id) ↔ removed about removes log n = false
  silent : log.Pairwise fun a b => removes a → about b ≠ about a
  known : ∀ e ∈ log, about e < l.next

variable {about removes} {l : LinkedList α} {log : List E} {x : Node α} {s : Walk α W E ε}
  {d : Done α W E X (Fate ε)} {body : Body α W E X ε}

theorem removed_append (log more : List E) (n : Nat) :
    removed about removes (log ++ more) n =
      (removed about removes log n || removed about removes more n) :=
  List.any_append

theorem removed_eq_false_iff {n : Nat} :
    removed about removes log n = false ↔ ∀ e ∈ log, removes e → about e ≠ n := by
  simp [removed]

theorem removed_congr {removes' : E → Bool} (same : ∀ e ∈ log, removes e = removes' e) (n : Nat) :
    removed about removes log n = removed about removes' log n := by
  rw [Bool.eq_iff_iff, removed, removed, List.any_eq_true, List.any_eq_true]
  refine exists_congr fun e => and_congr_right fun member => ?_
  rw [same e member]

theorem Tidy.removed_of_kept (tidy : Tidy about removes x d) (kept : d.result ≠ .ok .erase)
    (n : Nat) : removed about removes d.events n = false := by
  rw [removed_eq_false_iff]
  intro e member removal
  rw [tidy.kept kept e member] at removal
  cases removal

theorem Tidy.removed_of_erased (tidy : Tidy about removes x d) (erased : d.result = .ok .erase)
    (n : Nat) : removed about removes d.events n = (n == x.id) := by
  obtain ⟨e, only, removal⟩ := tidy.erased erased
  have own := tidy.own e (by simp [only])
  simp [removed, only, removal, own, Bool.beq_comm]

namespace Walk

/-- An iteration that does not erase leaves the list with what was pushed. -/
theorem visit_list_of_kept (kept : d.result ≠ .ok .erase) :
    (s.visit x d).list = s.list.pushAll d.pushed := by
  unfold visit
  split
  · rfl
  · next erased => exact absurd erased kept
  · rfl

theorem visit_list_of_erased (erased : d.result = .ok .erase) :
    (s.visit x d).list = (s.list.pushAll d.pushed).erase s.pos := by
  simp only [visit, erased]

end Walk

/-! ## Settled lists -/

theorem Settled.empty : Settled about removes (empty : LinkedList α) [] :=
  ⟨by simp [LinkedList.empty], .nil, by simp⟩

/-- A new node is not in the log. -/
theorem Settled.pushAll (settled : Settled about removes l log) (as : List α) :
    Settled about removes (l.pushAll as) log := by
  refine ⟨fun n bound => ?_, settled.silent, fun e member => ?_⟩
  · rw [pushAll_next] at bound
    rw [pushAll_nodes, List.map_append, List.mem_append, mem_freshNodes_ids]
    rcases Nat.lt_or_ge n l.next with old | new
    · rw [settled.present n old]
      constructor
      · rintro (present | ⟨fresh, -⟩)
        · exact present
        · omega
      · exact Or.inl
    · refine iff_of_true (.inr ⟨new, bound⟩) (removed_eq_false_iff.mpr fun e member _ => ?_)
      have := settled.known e member
      omega
  · rw [pushAll_next]
    exact Nat.lt_add_right _ (settled.known e member)

/-- Events about a node of the list can be logged, if none of them is a removal or
the node is then erased. -/
theorem Settled.append_own (settled : Settled about removes l log) (member : x ∈ l.nodes)
    {more : List E} (own : ∀ e ∈ more, about e = x.id)
    (inside : more.Pairwise fun a b => removes a → about b ≠ about a) :
    (log ++ more).Pairwise fun a b => removes a → about b ≠ about a := by
  refine List.pairwise_append.mpr ⟨settled.silent, inside, fun a old b new removal => ?_⟩
  have present := (settled.present x.id (l.below x member)).mp (List.mem_map_of_mem member)
  rw [own b new]
  exact (removed_eq_false_iff.mp present a old removal).symm

/-- **Step lemma.** An iteration of a tidy body keeps the list settled. -/
theorem Settled.visit (settled : Settled about removes s.list (log ++ s.events))
    (under : s.list.nodes[s.pos]? = some x) (tidy : Tidy about removes x d) :
    Settled about removes (s.visit x d).list (log ++ (s.visit x d).events) := by
  have member : x ∈ s.list.nodes := List.mem_of_getElem? under
  have pushed := settled.pushAll d.pushed
  have known : ∀ e ∈ log ++ (s.events ++ d.events), about e < s.list.next + d.pushed.length := by
    intro e logged
    rw [← List.append_assoc] at logged
    rcases List.mem_append.mp logged with old | new
    · exact Nat.lt_add_right _ (settled.known e old)
    · rw [tidy.own e new]
      exact Nat.lt_add_right _ (s.list.below x member)
  by_cases erased : d.result = .ok .erase
  · refine ⟨fun n bound => ?_, ?_, by simpa using known⟩
    · have under' : (s.list.pushAll d.pushed).nodes[s.pos]? = some x := by
        rw [pushAll_nodes, List.getElem?_append_left (List.getElem?_eq_some_iff.mp under).1, under]
      rw [Walk.visit_next, ← pushAll_next] at bound
      rw [Walk.visit_list_of_erased erased, erase_eq_filter under', Walk.visit_events,
        ← List.append_assoc, removed_append, tidy.removed_of_erased erased, Bool.or_eq_false_iff,
        ← pushed.present n bound]
      simp only [List.mem_map, List.mem_filter, bne_iff_ne, beq_eq_false_iff_ne]
      constructor
      · rintro ⟨m, ⟨present, other⟩, rfl⟩
        exact ⟨⟨m, present, rfl⟩, other⟩
      · rintro ⟨⟨m, present, rfl⟩, other⟩
        exact ⟨m, ⟨present, other⟩, rfl⟩
    · rw [Walk.visit_events, ← List.append_assoc]
      obtain ⟨e, only, -⟩ := tidy.erased erased
      exact settled.append_own member tidy.own (only ▸ List.pairwise_singleton ..)
  · refine ⟨fun n bound => ?_, ?_, by simpa using known⟩
    · rw [Walk.visit_next, ← pushAll_next] at bound
      rw [Walk.visit_list_of_kept erased, Walk.visit_events, ← List.append_assoc, removed_append,
        tidy.removed_of_kept erased, Bool.or_false]
      exact pushed.present n bound
    · rw [Walk.visit_events, ← List.append_assoc]
      refine settled.append_own member tidy.own
        (List.pairwise_of_forall_mem_list fun a logged b _ removal => ?_)
      rw [tidy.kept erased a logged] at removal
      cases removal

/-- **Run lemma.** A loop with a tidy body keeps the list settled. -/
theorem Settled.walk {fuel : Nat} (tidy : ∀ i x w, Tidy about removes x (body i x w))
    (settled : Settled about removes s.list (log ++ s.events)) :
    Settled about removes (walk body fuel s).1.list (log ++ (walk body fuel s).1.events) :=
  walk_invariant (fun s => Settled about removes s.list (log ++ s.events))
    (fun _ x under settled => settled.visit under (tidy _ x _)) settled

theorem countP_removes_le_one (silent : log.Pairwise fun a b => removes a → about b ≠ about a)
    (n : Nat) : (log.countP fun e => removes e && about e == n) ≤ 1 := by
  induction log with
  | nil => simp
  | cons e log ih =>
      rw [List.pairwise_cons] at silent
      rw [List.countP_cons]
      by_cases here : (removes e && about e == n) = true
      · rw [if_pos here]
        obtain ⟨removal, rfl⟩ : removes e = true ∧ about e = n := by simpa using here
        have none_later : (log.countP fun b => removes b && about b == about e) = 0 := by
          refine List.countP_eq_zero.mpr fun b later => ?_
          simp [silent.1 b later removal]
        omega
      · rw [if_neg here]
        exact ih silent.2

/-- Every node that was ever linked in is live or dead: it is in the list, once,
and its removal is not logged, or it is not in the list and its removal is logged
once. -/
theorem Settled.live_or_dead (settled : Settled about removes l log) {n : Nat}
    (known : n < l.next) :
    ((l.nodes.map (·.id)).count n = 1 ∧ ∀ e ∈ log, removes e → about e ≠ n) ∨
      (n ∉ l.nodes.map (·.id) ∧ (log.countP fun e => removes e && about e == n) = 1) := by
  have nodup : (l.nodes.map (·.id)).Nodup :=
    List.Pairwise.imp Nat.ne_of_lt (List.pairwise_map.mpr l.ordered)
  by_cases present : n ∈ l.nodes.map (·.id)
  · exact .inl ⟨List.nodup_iff_count_eq_one.mp nodup n present,
      removed_eq_false_iff.mp ((settled.present n known).mp present)⟩
  · have logged : removed about removes log n = true := by
      rwa [settled.present n known, Bool.not_eq_false] at present
    have some : 0 < log.countP fun e => removes e && about e == n :=
      List.countP_pos_iff.mpr (List.any_eq_true.mp logged)
    exact .inr ⟨present, Nat.le_antisymm (countP_removes_le_one settled.silent n) some⟩

/-- Without pushes, a loop with a tidy body leaves the nodes whose removal it did
not log. -/
theorem walk_nodes {fuel : Nat} (log : List E)
    (tidy : ∀ i x w, Tidy about removes x (body i x w))
    (quiet : ∀ i x w, (body i x w).pushed = [])
    (initial : s.list.nodes =
      l.nodes.filter fun n => !removed about removes (log ++ s.events) n.id) :
    (walk body fuel s).1.list.nodes =
      l.nodes.filter fun n => !removed about removes (log ++ (walk body fuel s).1.events) n.id := by
  refine walk_invariant
    (fun s => s.list.nodes =
      l.nodes.filter fun n => !removed about removes (log ++ s.events) n.id)
    (fun s x under kept => ?_) initial
  have tidyHere := tidy s.visited.length x s.world
  have quietHere := quiet s.visited.length x s.world
  rw [Walk.visit_events, ← List.append_assoc]
  by_cases erased : (body s.visited.length x s.world).result = .ok .erase
  · rw [Walk.visit_list_of_erased erased, quietHere, pushAll_nil, erase_eq_filter under, kept,
      List.filter_filter]
    refine List.filter_congr fun n _ => ?_
    rw [removed_append _ (body _ x _).events, tidyHere.removed_of_erased erased, Bool.not_or,
      Bool.and_comm, bne]
  · rw [Walk.visit_list_of_kept erased, quietHere, pushAll_nil, kept]
    refine List.filter_congr fun n _ => ?_
    rw [removed_append _ (body _ x _).events, tidyHere.removed_of_kept erased, Bool.or_false]

end LinkedList
