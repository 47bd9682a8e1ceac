import Sponge.EventLoopLifecycle

/-!
# The second loop and its vector

The second loop of `wait_next_event` reads the vector by an index that it counts
up, while it erases rules from the list and while the functions it calls may
register rules. `serveAll` is what it is meant to do: serve each rule with its own
entry, in order. The two are compared here for all programs, and it follows when
every access to the vector is safe.
-/

namespace Sponge

namespace EventLoop

open LinkedList (Node Act Fate Walk walk pass)

variable {σ H : Type} {p : Program σ H} {w : World σ} {rules : LinkedList (Rule H)}
  {pollfds : List PollFd}

/-! ## Serving each rule with its own entry -/

/-- Serve the rules in order, each with its own entry, up to the first exception. -/
def serveAll (p : Program σ H) : List (Node (Rule H) × PollFd) → Step σ H Unit
  | [] => pure ()
  | (rule, e) :: rest => do
      let _ ← serve p rule e
      serveAll p rest

theorem serveAll_cons_of_error {rule : Node (Rule H)} {e : PollFd} {abort : Abort}
    (error : (serve p rule e w).result = .error abort) (rest : List (Node (Rule H) × PollFd)) :
    serveAll p ((rule, e) :: rest) w =
      ⟨(serve p rule e w).world, (serve p rule e w).pushed, (serve p rule e w).events,
        .error abort⟩ :=
  Act.bind_of_error error _

theorem serveAll_cons_of_ok {rule : Node (Rule H)} {e : PollFd} {fate : Fate Unit}
    (ok : (serve p rule e w).result = .ok fate) (rest : List (Node (Rule H) × PollFd)) :
    serveAll p ((rule, e) :: rest) w =
      ⟨(serveAll p rest (serve p rule e w).world).world,
        (serve p rule e w).pushed ++ (serveAll p rest (serve p rule e w).world).pushed,
        (serve p rule e w).events ++ (serveAll p rest (serve p rule e w).world).events,
        (serveAll p rest (serve p rule e w).world).result⟩ :=
  Act.bind_of_ok ok _

theorem serve_events_subset (p : Program σ H) (rule : Node (Rule H)) (e : PollFd)
    (rest : List (Node (Rule H) × PollFd)) (w : World σ) :
    (serve p rule e w).events ⊆ (serveAll p ((rule, e) :: rest) w).events := by
  cases result : (serve p rule e w).result with
  | error abort => rw [serveAll_cons_of_error result]; exact List.Subset.refl _
  | ok fate => rw [serveAll_cons_of_ok result]; exact List.subset_append_left _ _

/-- The body of the second loop, on rules that stay in the list, serves each rule
with the entry at its place. -/
theorem pass_resultBody (p : Program σ H) {nodes : List (Node (Rule H))} {i : Nat}
    (aligned : nodes.length = (pollfds.drop i).length) (w : World σ) :
    serveAll p (nodes.zip (pollfds.drop i)) w =
      ⟨(pass (resultBody p pollfds) i nodes w).world,
        (pass (resultBody p pollfds) i nodes w).pushed,
        (pass (resultBody p pollfds) i nodes w).events,
        (pass (resultBody p pollfds) i nodes w).result.map fun _ => ()⟩ := by
  induction nodes generalizing i w with
  | nil => rfl
  | cons rule nodes ih =>
      cases ahead : pollfds.drop i with
      | nil => simp [ahead] at aligned
      | cons e later =>
          have read : pollfds[i]? = some e := by
            rw [← List.head?_drop, ahead, List.head?_cons]
          have rest : pollfds.drop (i + 1) = later := by
            rw [← List.tail_drop, ahead, List.tail_cons]
          have body : resultBody p pollfds i rule = serve p rule e := by
            simp only [resultBody, read]
          have aligned' : nodes.length = (pollfds.drop (i + 1)).length := by
            rw [rest]
            simpa [ahead] using aligned
          rw [List.zip_cons_cons]
          cases result : (resultBody p pollfds i rule w).result with
          | error abort =>
              rw [LinkedList.pass_cons_of_error result]
              rw [body] at result ⊢
              rw [serveAll_cons_of_error result]
              rfl
          | ok fate =>
              rw [LinkedList.pass_cons_of_ok result]
              rw [body] at result ⊢
              rw [serveAll_cons_of_ok result, ← rest, ih aligned']
              cases (pass (resultBody p pollfds) (i + 1) nodes (serve p rule e w).world).result
              · rfl
              · rfl

section ResultLoop

variable (aligned : rules.nodes.length = pollfds.length)

include aligned

theorem serveAll_eq_pass (p : Program σ H) (w : World σ) :
    serveAll p (rules.nodes.zip pollfds) w =
      ⟨(pass (resultBody p pollfds) 0 rules.nodes w).world,
        (pass (resultBody p pollfds) 0 rules.nodes w).pushed,
        (pass (resultBody p pollfds) 0 rules.nodes w).events,
        (pass (resultBody p pollfds) 0 rules.nodes w).result.map fun _ => ()⟩ :=
  pass_resultBody p (i := 0) aligned w

theorem pass_of_serveAll_ok (ok : (serveAll p (rules.nodes.zip pollfds) w).result = .ok ()) :
    ∃ kept, (pass (resultBody p pollfds) 0 rules.nodes w).result = .ok kept := by
  rw [serveAll_eq_pass aligned] at ok
  cases result : (pass (resultBody p pollfds) 0 rules.nodes w).result with
  | error abort => simp [result, Except.map] at ok
  | ok kept => exact ⟨kept, rfl⟩

/-- If a rule's service ends with an exception, so does the loop. -/
theorem resultLoop_of_error {abort : Abort}
    (error : (serveAll p (rules.nodes.zip pollfds) w).result = .error abort) :
    ∃ results, resultLoop p pollfds rules w = (results, .left abort) ∧
      results.world = (serveAll p (rules.nodes.zip pollfds) w).world ∧
      results.events = (serveAll p (rules.nodes.zip pollfds) w).events ∧
      results.visited <+: rules.nodes := by
  rw [serveAll_eq_pass aligned] at error ⊢
  have left : (pass (resultBody p pollfds) 0 rules.nodes w).result = .error abort := by
    cases result : (pass (resultBody p pollfds) 0 rules.nodes w).result with
    | error abort' => simpa [result, Except.map] using error
    | ok kept => simp [result, Except.map] at error
  rw [resultLoop, ← aligned]
  exact LinkedList.walk_of_pass_error (s := .start rules w) (List.append_nil _).symm 1 left

/-- If no service ends with an exception and no rule was registered, the loop ends at the
end of the vector. -/
theorem resultLoop_of_quiet (ok : (serveAll p (rules.nodes.zip pollfds) w).result = .ok ())
    (quiet : (serveAll p (rules.nodes.zip pollfds) w).pushed = []) :
    ∃ results, resultLoop p pollfds rules w = (results, .finished) ∧
      results.world = (serveAll p (rules.nodes.zip pollfds) w).world ∧
      results.events = (serveAll p (rules.nodes.zip pollfds) w).events ∧
      results.visited = rules.nodes := by
  obtain ⟨kept, passed⟩ := pass_of_serveAll_ok aligned ok
  rw [serveAll_eq_pass aligned] at quiet ⊢
  obtain ⟨results, loop, world, events, -, visited⟩ :=
    LinkedList.walk_of_pass_quiet (s := .start rules w) rfl 1 passed quiet
  rw [resultLoop, ← aligned]
  exact ⟨results, loop, world, events, visited⟩

/-- Where a rule was registered, the loop goes on to it and reads behind the end of the
vector. -/
theorem resultLoop_of_registered (ok : (serveAll p (rules.nodes.zip pollfds) w).result = .ok ())
    (registered : (serveAll p (rules.nodes.zip pollfds) w).pushed ≠ []) :
    ∃ results late, resultLoop p pollfds rules w = (results, .left .undefined) ∧
      results.events = (serveAll p (rules.nodes.zip pollfds) w).events ∧
      results.visited = rules.nodes ++ [late] := by
  obtain ⟨kept, passed⟩ := pass_of_serveAll_ok aligned ok
  rw [serveAll_eq_pass aligned] at registered ⊢
  obtain ⟨results, new, loop, -, events, -, visited, ahead, pushed⟩ :=
    LinkedList.walk_of_pass_ok (s := .start rules w) (List.append_nil _).symm 1 passed
  rw [resultLoop, ← aligned]
  cases new with
  | nil => exact absurd pushed.symm registered
  | cons late new =>
      have behind : pollfds[results.visited.length]? = none := by
        rw [visited]
        exact List.getElem?_eq_none (Nat.le_of_eq aligned.symm)
      have undefined : resultBody p pollfds results.visited.length late results.world =
          ⟨results.world, [], [], .error .undefined⟩ := by
        simp only [resultBody, behind]
        rfl
      rw [LinkedList.walk_of_error (LinkedList.under_of_ahead ahead) (by rw [undefined])] at loop
      refine ⟨_, late, loop, ?_, by rw [Walk.visit_visited, visited]; rfl⟩
      rw [Walk.visit_events, undefined, List.append_nil, events]
      rfl

/-- In every case, the loop calls the functions that the service of all rules calls. -/
theorem resultLoop_events (p : Program σ H) (w : World σ) :
    (resultLoop p pollfds rules w).1.events = (serveAll p (rules.nodes.zip pollfds) w).events := by
  cases result : (serveAll p (rules.nodes.zip pollfds) w).result with
  | error abort =>
      obtain ⟨results, loop, -, events, -⟩ := resultLoop_of_error aligned result
      rw [loop, events]
  | ok =>
      by_cases quiet : (serveAll p (rules.nodes.zip pollfds) w).pushed = []
      · obtain ⟨results, loop, -, events, -⟩ := resultLoop_of_quiet aligned result quiet
        rw [loop, events]
      · obtain ⟨results, late, loop, events, -⟩ := resultLoop_of_registered aligned result quiet
        rw [loop, events]

end ResultLoop

/-! ## Access to the vector -/

/-- Every entry that the first loop builds is the entry of the rule it is built
for. -/
theorem setupLoop_kept {spare : Nat} {setup : Walk (Rule H) (World σ) (Event σ H) Entry}
    {stop : LinkedList.Stop Abort} (first : setupLoop p spare rules w = (setup, stop)) :
    ∀ k ∈ setup.kept, ∃ interested w', k.2 = entryOf k.1 interested (w' : World σ) := by
  have entries : ∀ k ∈ (setupLoop p spare rules w).1.kept,
      ∃ interested w', k.2 = entryOf k.1 interested (w' : World σ) := by
    refine LinkedList.walk_kept (fun i rule w out returned => ?_) (by simp [Walk.start])
    have surveys := setupBody_surveys p i rule w
    rw [returned] at surveys
    obtain ⟨interested, entry⟩ := surveys.entry_eq
    exact ⟨interested, _, entry⟩
  rwa [first] at entries

/-- When the first loop has ended, it has built an entry for every rule in the list. -/
theorem setupLoop_nodes {spare : Nat} {setup : Walk (Rule H) (World σ) (Event σ H) Entry}
    (first : setupLoop p spare rules w = (setup, .finished)) :
    setup.list.nodes = setup.kept.map (·.1) := by
  have finished : (setupLoop p spare rules w).2 = .finished := by rw [first]
  have nodes := (Walk.inStep_start rules w).nodes_of_finished finished
  rwa [← setupLoop, first] at nodes

theorem setupLoop_aligned {spare : Nat} {setup : Walk (Rule H) (World σ) (Event σ H) Entry}
    (first : setupLoop p spare rules w = (setup, .finished)) (answer : PollAnswer) :
    setup.list.nodes.length = (reported (setup.kept.map (·.2.pollfd)) answer).length := by
  simp [setupLoop_nodes first, reported]

/-- The second loop of a call calls the functions that the service of all rules calls,
each rule with its entry. -/
theorem dispatched_events {spare : Nat} {setup : Walk (Rule H) (World σ) (Event σ H) Entry}
    {pollfds : List PollFd} {answer : PollAnswer}
    {results : Walk (Rule H) (World σ) (Event σ H) Unit} {stop : LinkedList.Stop Abort}
    (first : setupLoop p spare rules w = (setup, .finished))
    (vector : pollfds = reported (setup.kept.map (·.2.pollfd)) answer)
    (second : resultLoop p pollfds setup.list setup.world = (results, stop)) :
    setup.list.nodes.length = pollfds.length ∧
      results.events = (serveAll p (setup.list.nodes.zip pollfds) setup.world).events := by
  have aligned : setup.list.nodes.length = pollfds.length := by
    rw [vector]
    exact setupLoop_aligned first answer
  refine ⟨aligned, ?_⟩
  rw [← resultLoop_events aligned, second]

/-- The rule at a place of the list, and the entry at that place of the vector. -/
theorem reported_owner {kept : List (Node (Rule H) × Entry)} {rule : Node (Rule H)} {i : Nat}
    (own : ∀ k ∈ kept, ∃ interested w', k.2 = entryOf k.1 interested (w' : World σ))
    (answer : PollAnswer) (here : (kept.map (·.1))[i]? = some rule) :
    ∃ e, (reported (kept.map (·.2.pollfd)) answer)[i]? = some e ∧ e.owner = rule.id := by
  rw [List.getElem?_map, Option.map_eq_some_iff] at here
  obtain ⟨k, here, rfl⟩ := here
  refine ⟨k.2.pollfd.report (answer.revents i), by simp [reported, here], ?_⟩
  obtain ⟨interested, w', entry⟩ := own k (List.mem_of_getElem? here)
  rw [entry]
  rfl

/-- In each iteration of the second loop, the index is inside the vector and the entry
read was built for the rule that the iterator stands at. -/
def Call.AccessesSafe (call : Call σ H) : Prop :=
  ∀ (i : Nat) (rule : Node (Rule H)), call.served[i]? = some rule →
    ∃ e : PollFd, call.pollfds[i]? = some e ∧ e.owner = rule.id

/-- The functions that are called to serve these rules register no rule, unless the
service ends with an exception. -/
def ServesQuietly (p : Program σ H) (entries : List (Node (Rule H) × PollFd)) (w : World σ) :
    Prop :=
  (serveAll p entries w).result = .ok () → (serveAll p entries w).pushed = []

/-- The iterator of the second loop stands at rules that have entries if and only if the
loop does not get to a registered one. -/
theorem resultLoop_safe_iff (aligned : rules.nodes.length = pollfds.length)
    (own : ∀ (i : Nat) (rule : Node (Rule H)), rules.nodes[i]? = some rule →
      ∃ e : PollFd, pollfds[i]? = some e ∧ e.owner = rule.id) :
    (∀ (i : Nat) (rule : Node (Rule H)),
      (resultLoop p pollfds rules w).1.visited[i]? = some rule →
        ∃ e : PollFd, pollfds[i]? = some e ∧ e.owner = rule.id) ↔
      ServesQuietly p (rules.nodes.zip pollfds) w := by
  constructor
  · intro safe ok
    by_contra registered
    obtain ⟨results, late, loop, -, visited⟩ := resultLoop_of_registered aligned ok registered
    obtain ⟨e, read, -⟩ := safe rules.nodes.length late (by simp [loop, visited])
    rw [aligned, List.getElem?_eq_none (Nat.le_refl _)] at read
    cases read
  · intro quiet i rule here
    cases result : (serveAll p (rules.nodes.zip pollfds) w).result with
    | error abort =>
        obtain ⟨results, loop, -, -, more, whole⟩ := resultLoop_of_error aligned result
        rw [loop] at here
        have inside := (List.getElem?_eq_some_iff.mp here).1
        exact own i rule (by rw [← whole, List.getElem?_append_left inside, here])
    | ok =>
        obtain ⟨results, loop, -, -, visited⟩ := resultLoop_of_quiet aligned result (quiet result)
        rw [loop] at here
        exact own i rule (visited ▸ here)

/-- **Index safety.** All accesses of a call to the vector are safe if and only if the
functions called for the polled rules register no rule, or one of these services
ends with an exception. -/
theorem accessesSafe_iff (p : Program σ H) (spare : Nat) (poll : Poll) (timeoutMs : Int)
    (rules : LinkedList (Rule H)) (w : World σ) :
    (waitNextEvent p spare poll timeoutMs rules w).AccessesSafe ↔
      ∀ setup, setupLoop p spare rules w = (setup, .finished) →
        setup.kept.any (·.2.interested) →
        let answer := poll (setup.kept.map (·.2.pollfd)) timeoutMs
        afterPoll answer = none →
        ServesQuietly p (setup.list.nodes.zip (reported (setup.kept.map (·.2.pollfd)) answer))
          setup.world := by
  have phases := waitNextEvent_phases p spare poll timeoutMs rules w
  generalize waitNextEvent p spare poll timeoutMs rules w = call at phases
  cases phases with
  | @early setup stop outcome first ends =>
      refine iff_of_true (fun i rule served => by cases served) ?_
      intro setup' first' somebody answer goesOn
      obtain ⟨rfl, rfl⟩ : setup = setup' ∧ stop = .finished := by
        rw [first] at first'
        exact Prod.mk.inj first'
      cases ends with
      | nothing nobody => rw [nobody] at somebody; cases somebody
      | answered _ ended => rw [goesOn] at ended; cases ended
  | @dispatched setup pollfds results stop first somebody goesOn vector second =>
      have nodes := setupLoop_nodes first
      have own := setupLoop_kept first
      have aligned : setup.list.nodes.length = pollfds.length := by
        rw [vector]
        exact setupLoop_aligned first _
      have served : ∀ (i : Nat) (rule : Node (Rule H)), setup.list.nodes[i]? = some rule →
          ∃ e : PollFd, pollfds[i]? = some e ∧ e.owner = rule.id := by
        intro i rule here
        rw [nodes] at here
        rw [vector]
        exact reported_owner own _ here
      have safe := resultLoop_safe_iff (p := p) (w := setup.world) aligned served
      rw [second] at safe
      refine safe.trans ⟨fun quiet setup' first' _ _ => ?_, fun quiet => ?_⟩
      · rw [first] at first'
        cases first'
        rwa [vector] at quiet
      · rw [vector]
        exact quiet setup first somebody goesOn

/-- A program that accepts connections: its callback reads a byte from the descriptor
it is named by and registers a rule for the next one. -/
def acceptor : Program Unit Nat where
  callback fd w :=
    ⟨w.update fd fun wrapper => (FileDescriptor.read wrapper 1 ⟨1, 0⟩ [0]).1,
      [⟨fd + 1, .In, fd + 1, none, none⟩], .ok ()⟩
  interest _ w := ⟨w, [], .ok true⟩
  cancel _ w := ⟨w, [], .ok ()⟩

/-- With one rule, whose callback registers a second one, the loop reads the entry
number one of a vector of length one. -/
theorem acceptor_not_accessesSafe :
    ¬(waitNextEvent acceptor 0 allReady (-1) (addRule .empty ⟨0, .In, 0, none, none⟩)
      openWorld).AccessesSafe := by
  intro safe
  obtain ⟨e, read, -⟩ := safe 1 ⟨1, 1, .In, 1, none, none⟩ (by decide +kernel)
  have short : (waitNextEvent acceptor 0 allReady (-1) (addRule .empty ⟨0, .In, 0, none, none⟩)
      openWorld).pollfds.length = 1 := by decide +kernel
  rw [List.getElem?_eq_none (by rw [short])] at read
  cases read

end EventLoop

end Sponge
