import Mathlib.Data.List.Basic

/-!
# Walking a linked list that changes

A linked list keeps the identity of its nodes: elements are pushed at its back,
each into a node of its own, and erased where an iterator points. A loop walks
the list from its front. Its body looks at the node under the iterator, acts on
a world, may log events, may push further elements while it runs, and ends by
moving the iterator on, by erasing the node or by leaving the loop.

`walk` is that loop. `pass` is what the same body does on a list of nodes that
nobody changes. The two agree on the nodes that were in the list from the start,
whether the pass throws (`walk_of_pass_error`) or gets through (`walk_of_pass_ok`);
if nothing was pushed then the walk ends there (`walk_of_pass_quiet`).
-/

universe u

namespace LinkedList

/-! ## The list -/

/-- A node, with the number it was given when it was linked in. -/
structure Node (α : Type*) where
  id : Nat
  val : α
  deriving DecidableEq, Repr

end LinkedList

open LinkedList in
/-- A list that is only pushed at its back. The nodes are numbered in the order of
the pushes. -/
structure LinkedList (α : Type*) where
  nodes : List (Node α)
  next : Nat
  ordered : nodes.Pairwise (·.id < ·.id)
  below : ∀ n ∈ nodes, n.id < next

namespace LinkedList

variable {α : Type u}

def empty : LinkedList α := ⟨[], 0, .nil, by simp⟩

def pushBack (l : LinkedList α) (a : α) : LinkedList α where
  nodes := l.nodes ++ [⟨l.next, a⟩]
  next := l.next + 1
  ordered := by
    refine List.pairwise_append.mpr ⟨l.ordered, List.pairwise_singleton .., ?_⟩
    intro n member m last
    rw [List.mem_singleton.mp last]
    exact l.below n member
  below := by
    intro n member
    rcases List.mem_append.mp member with old | new
    · exact Nat.lt_succ_of_lt (l.below n old)
    · rw [List.mem_singleton.mp new]
      exact Nat.lt_succ_self _

def pushAll (l : LinkedList α) (as : List α) : LinkedList α := as.foldl pushBack l

/-- Unlink the node that `pos` nodes stand before. -/
def erase (l : LinkedList α) (pos : Nat) : LinkedList α where
  nodes := l.nodes.eraseIdx pos
  next := l.next
  ordered := l.ordered.sublist (List.eraseIdx_sublist ..)
  below := fun n member => l.below n ((List.eraseIdx_sublist ..).subset member)

@[simp] theorem pushAll_nil (l : LinkedList α) : l.pushAll [] = l := rfl

@[simp] theorem erase_next (l : LinkedList α) (pos : Nat) : (l.erase pos).next = l.next := rfl

@[simp] theorem erase_nodes (l : LinkedList α) (pos : Nat) :
    (l.erase pos).nodes = l.nodes.eraseIdx pos := rfl

/-- The nodes that a sequence of pushes links in. -/
def freshNodes (next : Nat) : List α → List (Node α)
  | [] => []
  | a :: as => ⟨next, a⟩ :: freshNodes (next + 1) as

theorem pushAll_nodes (l : LinkedList α) (as : List α) :
    (l.pushAll as).nodes = l.nodes ++ freshNodes l.next as := by
  induction as generalizing l with
  | nil => simp [freshNodes]
  | cons a as ih =>
      rw [pushAll, List.foldl_cons, ← pushAll, ih]
      simp [pushBack, freshNodes]

theorem pushAll_next (l : LinkedList α) (as : List α) :
    (l.pushAll as).next = l.next + as.length := by
  induction as generalizing l with
  | nil => rfl
  | cons a as ih =>
      rw [pushAll, List.foldl_cons, ← pushAll, ih]
      simp [pushBack]
      omega

theorem freshNodes_vals (next : Nat) (as : List α) :
    (freshNodes next as).map (·.val) = as := by
  induction as generalizing next with
  | nil => rfl
  | cons a as ih => simp [freshNodes, ih]

theorem mem_freshNodes_ids {next n : Nat} {as : List α} :
    n ∈ (freshNodes next as).map (·.id) ↔ next ≤ n ∧ n < next + as.length := by
  induction as generalizing next with
  | nil => simp [freshNodes]
  | cons a as ih =>
      simp only [freshNodes, List.map_cons, List.mem_cons, ih, List.length_cons]
      omega

/-- Erasing under the iterator removes the node with that number and no other. -/
theorem erase_eq_filter {l : LinkedList α} {pos : Nat} {x : Node α}
    (under : l.nodes[pos]? = some x) :
    (l.erase pos).nodes = l.nodes.filter (fun n => n.id != x.id) := by
  obtain ⟨inside, here⟩ := List.getElem?_eq_some_iff.mp under
  have split : l.nodes = l.nodes.take pos ++ x :: l.nodes.drop (pos + 1) := by
    rw [← here, List.getElem_cons_drop, List.take_append_drop]
  have ordered := l.ordered
  rw [split, List.pairwise_append, List.pairwise_cons] at ordered
  obtain ⟨-, ⟨after, -⟩, before⟩ := ordered
  rw [erase_nodes, List.eraseIdx_eq_take_drop_succ]
  conv_rhs => rw [split, List.filter_append, List.filter_cons_of_neg (by simp)]
  congr 1
  · refine (List.filter_eq_self.mpr fun n member => ?_).symm
    exact bne_iff_ne.mpr (Nat.ne_of_lt (before n member x (List.mem_cons_self ..)))
  · refine (List.filter_eq_self.mpr fun n member => ?_).symm
    exact bne_iff_ne.mpr (Nat.ne_of_gt (after n member))

/-! ## Acting -/

variable {W E X : Type*} {ε R S : Type u}

/-- What a piece of code did: the world it left, the elements it pushed, the events
it logged and its result. -/
structure Done (α W E X R : Type*) where
  world : W
  pushed : List α
  events : List E
  result : Except X R

/-- Code that acts on a world. -/
def Act (α W E X R : Type*) := W → Done α W E X R

namespace Act

def andThen (act : Act α W E X R) (rest : R → Act α W E X S) : Act α W E X S := fun w =>
  let first := act w
  match first.result with
  | .error x => ⟨first.world, first.pushed, first.events, .error x⟩
  | .ok r =>
      let second := rest r first.world
      ⟨second.world, first.pushed ++ second.pushed, first.events ++ second.events, second.result⟩

instance : Monad (Act α W E X) where
  pure r := fun w => ⟨w, [], [], .ok r⟩
  bind := andThen

def throw (x : X) : Act α W E X R := fun w => ⟨w, [], [], .error x⟩

/-- Look at the world. -/
def look (see : W → R) : Act α W E X R := fun w => ⟨w, [], [], .ok (see w)⟩

@[simp] theorem pure_apply (r : R) (w : W) :
    (pure r : Act α W E X R) w = ⟨w, [], [], .ok r⟩ := rfl

@[simp] theorem throw_apply (x : X) (w : W) :
    (throw x : Act α W E X R) w = ⟨w, [], [], .error x⟩ := rfl

theorem bind_of_ok {act : Act α W E X R} {w : W} {r : R} (ok : (act w).result = .ok r)
    (rest : R → Act α W E X S) :
    (act >>= rest) w =
      ⟨(rest r (act w).world).world, (act w).pushed ++ (rest r (act w).world).pushed,
        (act w).events ++ (rest r (act w).world).events, (rest r (act w).world).result⟩ := by
  simp only [bind, andThen, ok]

theorem bind_of_error {act : Act α W E X R} {w : W} {x : X} (error : (act w).result = .error x)
    (rest : R → Act α W E X S) :
    (act >>= rest) w = ⟨(act w).world, (act w).pushed, (act w).events, .error x⟩ := by
  simp only [bind, andThen, error]

@[simp] theorem look_bind (see : W → R) (rest : R → Act α W E X S) (w : W) :
    (look see >>= rest) w = rest (see w) w := rfl

end Act

/-! ## Walking -/

/-- How the body of a loop leaves the node under the iterator. -/
inductive Fate (ε : Type*) where
  | next (out : ε)
  | erase

/-- Add a node, if it is kept, to the nodes behind it. -/
def Fate.collect (x : Node α) : Fate ε → List (Node α × ε) → List (Node α × ε)
  | .next out, kept => (x, out) :: kept
  | .erase, kept => kept

/-- The body of a loop, given the number of the iteration and the node under the
iterator. -/
abbrev Body (α W E X ε : Type*) := Nat → Node α → Act α W E X (Fate ε)

/-- The state of a loop. The iterator stands behind `pos` nodes: those that were kept,
each with what the body returned for it. -/
structure Walk (α W E ε : Type*) where
  list : LinkedList α
  pos : Nat
  visited : List (Node α)
  kept : List (Node α × ε)
  world : W
  events : List E

/-- How a loop ended. -/
inductive Stop (X : Type*) where
  | finished
  | left (x : X)
  | outOfFuel

namespace Walk

/-- The state of a loop before its first iteration. -/
def start (list : LinkedList α) (world : W) : Walk α W E ε := ⟨list, 0, [], [], world, []⟩

/-- What is ahead of the iterator. -/
def ahead (s : Walk α W E ε) : List (Node α) := s.list.nodes.drop s.pos

/-- One iteration, at the node `x`, in which the body did `d`. -/
def visit (s : Walk α W E ε) (x : Node α) (d : Done α W E X (Fate ε)) : Walk α W E ε :=
  let list := s.list.pushAll d.pushed
  let events := s.events ++ d.events
  match d.result with
  | .ok (.next out) => ⟨list, s.pos + 1, s.visited ++ [x], s.kept ++ [(x, out)], d.world, events⟩
  | .ok .erase => ⟨list.erase s.pos, s.pos, s.visited ++ [x], s.kept, d.world, events⟩
  | .error _ => ⟨list, s.pos, s.visited ++ [x], s.kept, d.world, events⟩

section Visit

variable (s : Walk α W E ε) (x : Node α) (d : Done α W E X (Fate ε))

@[simp] theorem visit_world : (s.visit x d).world = d.world := by
  unfold visit; split <;> rfl

@[simp] theorem visit_events : (s.visit x d).events = s.events ++ d.events := by
  unfold visit; split <;> rfl

@[simp] theorem visit_visited : (s.visit x d).visited = s.visited ++ [x] := by
  unfold visit; split <;> rfl

@[simp] theorem visit_next : (s.visit x d).list.next = s.list.next + d.pushed.length := by
  unfold visit; split <;> simp [pushAll_next]

variable {s x d}

theorem visit_kept {fate : Fate ε} (ok : d.result = .ok fate) :
    (s.visit x d).kept = s.kept ++ fate.collect x [] := by
  cases fate <;> simp [visit, ok, Fate.collect]

theorem mem_visit_kept {k : Node α × ε} (member : k ∈ (s.visit x d).kept) :
    k ∈ s.kept ∨ (k.1 = x ∧ d.result = .ok (.next k.2)) := by
  unfold visit at member
  dsimp only at member
  split at member
  · next out result =>
    rcases List.mem_append.mp member with old | new
    · exact .inl old
    · rw [List.mem_singleton.mp new]
      exact .inr ⟨rfl, result⟩
  · exact .inl member
  · exact .inl member

end Visit

end Walk

/-- The loop. The fuel bounds the number of its iterations. -/
def walk (body : Body α W E X ε) : Nat → Walk α W E ε → Walk α W E ε × Stop X
  | 0, s =>
      match s.list.nodes[s.pos]? with
      | none => (s, .finished)
      | some _ => (s, .outOfFuel)
  | fuel + 1, s =>
      match s.list.nodes[s.pos]? with
      | none => (s, .finished)
      | some x =>
          let d := body s.visited.length x s.world
          match d.result with
          | .error e => (s.visit x d, .left e)
          | .ok _ => walk body fuel (s.visit x d)

/-- The body on nodes that stay where they are. -/
def pass (body : Body α W E X ε) : Nat → List (Node α) → Act α W E X (List (Node α × ε))
  | _, [] => pure []
  | i, x :: xs => do
      let fate ← body i x
      let kept ← pass body (i + 1) xs
      return fate.collect x kept

variable {body : Body α W E X ε} {s : Walk α W E ε} {x : Node α} {xs : List (Node α)}
  {fuel : Nat}

theorem walk_of_end (atEnd : s.list.nodes[s.pos]? = none) : walk body fuel s = (s, .finished) := by
  cases fuel <;> simp [walk, atEnd]

theorem walk_of_error (under : s.list.nodes[s.pos]? = some x) {e : X}
    (error : (body s.visited.length x s.world).result = .error e) :
    walk body (fuel + 1) s = (s.visit x (body s.visited.length x s.world), .left e) := by
  simp [walk, under, error]

theorem walk_of_ok (under : s.list.nodes[s.pos]? = some x) {fate : Fate ε}
    (ok : (body s.visited.length x s.world).result = .ok fate) :
    walk body (fuel + 1) s = walk body fuel (s.visit x (body s.visited.length x s.world)) := by
  simp [walk, under, ok]

/-- **Invariant rule** for the loop. -/
theorem walk_invariant (inv : Walk α W E ε → Prop)
    (preserved : ∀ s x, s.list.nodes[s.pos]? = some x → inv s →
      inv (s.visit x (body s.visited.length x s.world)))
    (initial : inv s) : inv (walk body fuel s).1 := by
  induction fuel generalizing s with
  | zero => cases under : s.list.nodes[s.pos]? <;> simpa [walk, under] using initial
  | succ fuel ih =>
      cases under : s.list.nodes[s.pos]? with
      | none => rwa [walk_of_end under]
      | some x =>
          have next := preserved s x under initial
          cases result : (body s.visited.length x s.world).result with
          | error e => rwa [walk_of_error under result]
          | ok fate =>
              rw [walk_of_ok under result]
              exact ih next

/-- **Event rule.** What holds of all events that the body logs holds of all events
of the loop. -/
theorem walk_events {holds : E → Prop}
    (logged : ∀ i x w, ∀ e ∈ (body i x w).events, holds e)
    (initial : ∀ e ∈ s.events, holds e) : ∀ e ∈ (walk body fuel s).1.events, holds e := by
  refine walk_invariant (fun s => ∀ e ∈ s.events, holds e) (fun s x _ before => ?_) initial
  intro e member
  rw [Walk.visit_events] at member
  rcases List.mem_append.mp member with old | new
  · exact before e old
  · exact logged _ x _ e new

/-- **Output rule.** What the body returns for the nodes it keeps. -/
theorem walk_kept {holds : Node α × ε → Prop}
    (returned : ∀ i x w out, (body i x w).result = .ok (.next out) → holds (x, out))
    (initial : ∀ k ∈ s.kept, holds k) : ∀ k ∈ (walk body fuel s).1.kept, holds k := by
  refine walk_invariant (fun s => ∀ k ∈ s.kept, holds k) (fun s x _ before k member => ?_) initial
  rcases Walk.mem_visit_kept member with old | ⟨rfl, result⟩
  · exact before k old
  · exact returned _ k.1 _ k.2 result

/-- The loop ends normally only at the end of the list. -/
theorem walk_finished (finished : (walk body fuel s).2 = .finished) :
    (walk body fuel s).1.list.nodes[(walk body fuel s).1.pos]? = none := by
  induction fuel generalizing s with
  | zero =>
      cases under : s.list.nodes[s.pos]? with
      | none => simp [walk, under]
      | some x => simp [walk, under] at finished
  | succ fuel ih =>
      cases under : s.list.nodes[s.pos]? with
      | none => rwa [walk_of_end under]
      | some x =>
          cases result : (body s.visited.length x s.world).result with
          | error e => rw [walk_of_error under result] at finished; cases finished
          | ok fate =>
              rw [walk_of_ok under result] at finished ⊢
              exact ih finished

/-- The nodes before the iterator are those that were kept. -/
structure Walk.InStep (s : Walk α W E ε) : Prop where
  before : s.list.nodes.take s.pos = s.kept.map (·.1)
  inside : s.pos ≤ s.list.nodes.length

theorem Walk.inStep_start (list : LinkedList α) (world : W) :
    (Walk.start list world : Walk α W E ε).InStep :=
  ⟨rfl, Nat.zero_le _⟩

theorem Walk.InStep.visit (inStep : s.InStep) (under : s.list.nodes[s.pos]? = some x)
    (d : Done α W E X (Fate ε)) : (s.visit x d).InStep := by
  obtain ⟨inside, here⟩ := List.getElem?_eq_some_iff.mp under
  unfold Walk.visit
  dsimp only
  split
  · constructor
    · rw [pushAll_nodes, List.take_append_of_le_length inside,
        List.take_succ_eq_append_getElem inside, here, inStep.before, List.map_append]
      rfl
    · rw [pushAll_nodes, List.length_append]
      exact Nat.le_add_right_of_le inside
  · constructor
    · rw [erase_nodes, pushAll_nodes, List.eraseIdx_append_of_lt_length inside,
        List.eraseIdx_eq_take_drop_succ, List.append_assoc,
        List.take_left' (List.length_take_of_le (Nat.le_of_lt inside)), inStep.before]
    · rw [erase_nodes, pushAll_nodes, List.eraseIdx_append_of_lt_length inside, List.length_append,
        List.length_eraseIdx_of_lt inside]
      exact Nat.le_add_right_of_le (Nat.le_sub_one_of_lt inside)
  · constructor
    · rw [pushAll_nodes, List.take_append_of_le_length inStep.inside, inStep.before]
    · rw [pushAll_nodes, List.length_append]
      exact Nat.le_add_right_of_le inStep.inside

/-- When the loop ends normally, the list holds the nodes that were kept. -/
theorem Walk.InStep.nodes_of_finished (inStep : s.InStep)
    (finished : (walk body fuel s).2 = .finished) :
    (walk body fuel s).1.list.nodes = (walk body fuel s).1.kept.map (·.1) := by
  have after : (walk body fuel s).1.InStep :=
    walk_invariant Walk.InStep (fun _ _ under inStep => inStep.visit under _) inStep
  have passed := List.getElem?_eq_none_iff.mp (walk_finished finished)
  rw [← after.before, List.take_of_length_le passed]

/-! ## The loop and the pass -/

theorem under_of_ahead (ahead : s.ahead = x :: xs) : s.list.nodes[s.pos]? = some x := by
  rw [← List.head?_drop]
  exact congrArg List.head? ahead

/-- After an iteration that goes on, the iterator stands before what was behind
the node, followed by what the body pushed. -/
theorem Walk.visit_ahead (ahead : s.ahead = x :: xs) {d : Done α W E X (Fate ε)} {fate : Fate ε}
    (ok : d.result = .ok fate) :
    (s.visit x d).ahead = xs ++ freshNodes s.list.next d.pushed := by
  have inside : s.pos < s.list.nodes.length :=
    (List.getElem?_eq_some_iff.mp (under_of_ahead ahead)).1
  have tail : s.list.nodes.drop (s.pos + 1) = xs := by
    rw [← List.tail_drop]
    exact congrArg List.tail ahead
  cases fate with
  | next out =>
      simp only [Walk.ahead, Walk.visit, ok, pushAll_nodes]
      rw [List.drop_append_of_le_length inside, tail]
  | erase =>
      simp only [Walk.ahead, Walk.visit, ok, pushAll_nodes, erase_nodes]
      rw [List.eraseIdx_append_of_lt_length inside, List.eraseIdx_eq_take_drop_succ,
        List.append_assoc, List.drop_left' (List.length_take_of_le (Nat.le_of_lt inside)), tail]

theorem Fate.collect_eq (fate : Fate ε) (x : Node α) (kept : List (Node α × ε)) :
    fate.collect x kept = fate.collect x [] ++ kept := by
  cases fate <;> rfl

theorem pass_cons_of_error {i : Nat} {w : W} {e : X} (error : (body i x w).result = .error e) :
    pass body i (x :: xs) w =
      ⟨(body i x w).world, (body i x w).pushed, (body i x w).events, .error e⟩ :=
  Act.bind_of_error error _

theorem pass_cons_of_ok {i : Nat} {w : W} {fate : Fate ε} (ok : (body i x w).result = .ok fate) :
    pass body i (x :: xs) w =
      ⟨(pass body (i + 1) xs (body i x w).world).world,
        (body i x w).pushed ++ (pass body (i + 1) xs (body i x w).world).pushed,
        (body i x w).events ++ (pass body (i + 1) xs (body i x w).world).events,
        (pass body (i + 1) xs (body i x w).world).result.map (fate.collect x)⟩ := by
  rw [pass, Act.bind_of_ok ok]
  cases result : (pass body (i + 1) xs (body i x w).world).result with
  | error e => rw [Act.bind_of_error result]; rfl
  | ok outs => rw [Act.bind_of_ok result]; simp [Except.map]

/-- If the pass ends by leaving, the loop ends in the same way. -/
theorem walk_of_pass_error {first later : List (Node α)} (ahead : s.ahead = first ++ later)
    (fuel : Nat) {e : X} (left : (pass body s.visited.length first s.world).result = .error e) :
    ∃ s', walk body (first.length + fuel) s = (s', .left e) ∧
      s'.world = (pass body s.visited.length first s.world).world ∧
      s'.events = s.events ++ (pass body s.visited.length first s.world).events ∧
      s'.visited <+: s.visited ++ first := by
  induction first generalizing s later with
  | nil => cases left
  | cons x first ih =>
      rw [List.cons_append] at ahead
      have under := under_of_ahead ahead
      rw [List.length_cons, Nat.add_right_comm]
      cases result : (body s.visited.length x s.world).result with
      | error e' =>
          rw [pass_cons_of_error result] at left ⊢
          cases left
          refine ⟨_, walk_of_error under result, ?_⟩
          simp
      | ok fate =>
          rw [pass_cons_of_ok result] at left ⊢
          rw [walk_of_ok under result]
          have behind := Walk.visit_ahead ahead result
          rw [List.append_assoc] at behind
          have left' : (pass body (s.visited.length + 1) first
              (body s.visited.length x s.world).world).result = .error e := by
            cases rest : (pass body (s.visited.length + 1) first
              (body s.visited.length x s.world).world).result with
            | error e' => simpa [rest, Except.map] using left
            | ok outs => simp [rest, Except.map] at left
          obtain ⟨s', stop, world, events, visited⟩ :=
            ih (s := s.visit x (body s.visited.length x s.world)) behind (by simpa using left')
          exact ⟨s', stop, by simpa using world, by simpa using events, by simpa using visited⟩

/-- If the pass reaches the end of the nodes, the loop goes on behind them, and what
the body has pushed stands after what was there. -/
theorem walk_of_pass_ok {first later : List (Node α)} (ahead : s.ahead = first ++ later)
    (fuel : Nat) {kept : List (Node α × ε)}
    (passed : (pass body s.visited.length first s.world).result = .ok kept) :
    ∃ s' new, walk body (first.length + fuel) s = walk body fuel s' ∧
      s'.world = (pass body s.visited.length first s.world).world ∧
      s'.events = s.events ++ (pass body s.visited.length first s.world).events ∧
      s'.kept = s.kept ++ kept ∧ s'.visited = s.visited ++ first ∧
      s'.ahead = later ++ new ∧
      new.map (·.val) = (pass body s.visited.length first s.world).pushed := by
  induction first generalizing s later kept with
  | nil =>
      cases passed
      exact ⟨s, [], by simp, rfl, by simp [pass], by simp, by simp, by simpa using ahead, rfl⟩
  | cons x first ih =>
      rw [List.cons_append] at ahead
      have under := under_of_ahead ahead
      rw [List.length_cons, Nat.add_right_comm]
      cases result : (body s.visited.length x s.world).result with
      | error e' =>
          rw [pass_cons_of_error result] at passed
          cases passed
      | ok fate =>
          rw [pass_cons_of_ok result] at passed ⊢
          rw [walk_of_ok under result]
          have behind := Walk.visit_ahead ahead result
          rw [List.append_assoc] at behind
          cases rest : (pass body (s.visited.length + 1) first
              (body s.visited.length x s.world).world).result with
          | error e' => simp [rest, Except.map] at passed
          | ok kept' =>
              simp only [rest, Except.map, Except.ok.injEq] at passed
              obtain ⟨s', new, stop, world, events, made, visited, further, values⟩ :=
                ih (s := s.visit x (body s.visited.length x s.world)) behind (by simpa using rest)
              refine ⟨s', freshNodes s.list.next (body s.visited.length x s.world).pushed ++ new,
                stop, by simpa using world, by simpa using events, ?_, by simpa using visited,
                by simpa using further, ?_⟩
              · rw [made, Walk.visit_kept result, ← passed, Fate.collect_eq fate x kept']
                simp
              · simp only [List.map_append, values, Walk.visit_visited, Walk.visit_world,
                  List.length_append, List.length_singleton]
                rw [freshNodes_vals]

/-- If the body has pushed nothing on the way, the loop then ends. -/
theorem walk_of_pass_quiet {nodes : List (Node α)} (ahead : s.ahead = nodes) (fuel : Nat)
    {kept : List (Node α × ε)}
    (passed : (pass body s.visited.length nodes s.world).result = .ok kept)
    (quiet : (pass body s.visited.length nodes s.world).pushed = []) :
    ∃ s', walk body (nodes.length + fuel) s = (s', .finished) ∧
      s'.world = (pass body s.visited.length nodes s.world).world ∧
      s'.events = s.events ++ (pass body s.visited.length nodes s.world).events ∧
      s'.kept = s.kept ++ kept ∧ s'.visited = s.visited ++ nodes := by
  obtain ⟨s', new, loop, world, events, made, visited, ahead', pushed⟩ :=
    walk_of_pass_ok (ahead.trans (List.append_nil nodes).symm) fuel passed
  have none_new : new = [] := by rwa [quiet, List.map_eq_nil_iff] at pushed
  have atEnd : s'.list.nodes[s'.pos]? = none := by
    rw [← List.head?_drop, List.head?_eq_none_iff, ← none_new]
    exact ahead'
  rw [walk_of_end atEnd] at loop
  exact ⟨s', loop, world, events, made, visited⟩

theorem pass_pushed (quiet : ∀ i x w, (body i x w).pushed = []) (i : Nat)
    (xs : List (Node α)) (w : W) : (pass body i xs w).pushed = [] := by
  induction xs generalizing i w with
  | nil => rfl
  | cons x xs ih =>
      cases result : (body i x w).result with
      | error e => rw [pass_cons_of_error result]; exact quiet i x w
      | ok fate => rw [pass_cons_of_ok result]; simp [quiet, ih]

end LinkedList
