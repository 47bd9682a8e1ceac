import Mathlib.Data.List.Chain
import Sponge.EventLoopAccess

/-!
# Callbacks and defunct descriptors

The first loop of `wait_next_event` cancels the rules whose descriptor is closed, or
at its end and to be read. The second loop does not look again, so that a function
that is called in between can make defunct the descriptor of a rule whose callback
is still to come: several rules may share one wrapper.

A call is undisturbed when this does not happen. In a run of undisturbed calls no
callback is called on a defunct descriptor.
-/

namespace Sponge

namespace EventLoop

open LinkedList (Node Walk)

variable {σ H : Type} {p : Program σ H} {rule : Node (Rule H)} {w : World σ}
  {rules : LinkedList (Rule H)}

/-- A callback is called on a descriptor that the first loop would not cancel. -/
def Event.Sound : Event σ H → Prop
  | .callback rule before _ => ¬Defunct rule.val before
  | _ => True

instance : (e : Event σ H) → Decidable e.Sound
  | .callback rule before _ => inferInstanceAs (Decidable (¬Defunct rule.val before))
  | .interest .. => .isTrue trivial
  | .cancel .. => .isTrue trivial

/-! ## Undisturbed calls -/

/-- No step between these worlds makes the descriptor of the rule defunct. -/
def Spared (rule : Rule H) (worlds : List (World σ)) : Prop :=
  worlds.IsChain fun u u' => ¬Defunct rule u → ¬Defunct rule u'

instance (rule : Rule H) (worlds : List (World σ)) : Decidable (Spared rule worlds) :=
  inferInstanceAs (Decidable (worlds.IsChain _))

/-- Whenever a rule's turn comes and it is ready, its descriptor was spared so far.
`past` are the worlds that functions were called in before. -/
def Undisturbed (p : Program σ H) :
    List (World σ) → List (Node (Rule H) × PollFd) → World σ → Prop
  | _, [], _ => True
  | past, (rule, e) :: rest, w =>
      (e.reaction = .ready → Spared rule.val (past ++ [w])) ∧
        ∀ fate, (serve p rule e w).result = .ok fate →
          Undisturbed p (past ++ [w]) rest (serve p rule e w).world

/-- The call, if it comes to its second loop, is undisturbed. -/
def System.Undisturbed (p : Program σ H) (s : System σ H) : Op σ H → Prop
  | .waitNextEvent spare poll timeoutMs =>
      ∀ setup, setupLoop p spare s.rules s.world = (setup, .finished) →
        setup.kept.any (·.2.interested) →
        let answer := poll (setup.kept.map (·.2.pollfd)) timeoutMs
        afterPoll answer = none →
        EventLoop.Undisturbed p (setup.events.map Event.before)
          (setup.list.nodes.zip (reported (setup.kept.map (·.2.pollfd)) answer)) setup.world
  | _ => True

theorem Spared.live {worlds : List (World σ)} (spared : Spared rule.val (worlds ++ [w]))
    {u : World σ} (member : u ∈ worlds) (live : ¬Defunct rule.val u) : ¬Defunct rule.val w := by
  intro defunct
  have before := spared.backwards_concat_induction (Defunct rule.val) worlds
    (fun u u' keeps after => by_contra fun live => keeps live after) defunct
  exact live (before u member)

/-! ## The first loop tests -/

theorem Surveys.sound {events : List (Event σ H)} {w' : World σ}
    {result : Except Abort (LinkedList.Fate Entry)} (surveys : Surveys p rule w events w' result) :
    ∀ e ∈ events, e.Sound := by
  cases surveys <;> simp [Event.Sound]

theorem Surveys.tested {events : List (Event σ H)} {w' : World σ} {entry : Entry}
    (surveys : Surveys p rule w events w' (.ok (.next entry))) :
    ∃ e ∈ events, ¬Defunct rule.val e.before := by
  cases surveys with
  | entered live => exact ⟨_, List.mem_singleton_self _, live⟩

theorem setupLoop_sound (p : Program σ H) (spare : Nat) (rules : LinkedList (Rule H))
    (w : World σ) : ∀ e ∈ (setupLoop p spare rules w).1.events, e.Sound :=
  LinkedList.walk_events (fun i rule w => (setupBody_surveys p i rule w).sound)
    (by simp [Walk.start])

/-- Every rule that has an entry was live when it was tested. -/
theorem setupLoop_tested (p : Program σ H) (spare : Nat) (rules : LinkedList (Rule H))
    (w : World σ) :
    ∀ k ∈ (setupLoop p spare rules w).1.kept,
      ∃ e ∈ (setupLoop p spare rules w).1.events, ¬Defunct k.1.val e.before := by
  refine LinkedList.walk_invariant
    (fun s : Walk (Rule H) (World σ) (Event σ H) Entry =>
      ∀ k ∈ s.kept, ∃ e ∈ s.events, ¬Defunct k.1.val e.before)
    (fun s rule _ tested k member => ?_) (by simp [Walk.start])
  rw [Walk.visit_events]
  rcases Walk.mem_visit_kept member with old | ⟨rfl, result⟩
  · obtain ⟨e, logged, live⟩ := tested k old
    exact ⟨e, List.mem_append_left _ logged, live⟩
  · have surveys := setupBody_surveys p s.visited.length k.1 s.world
    rw [result] at surveys
    obtain ⟨e, logged, live⟩ := surveys.tested
    exact ⟨e, List.mem_append_right _ logged, live⟩

/-! ## The second loop relies on the test -/

/-- A callback is called only if the rule is ready, and in the world that the service
starts in. -/
theorem Reacts.sound {r : Reaction} {events : List (Event σ H)} {w' : World σ}
    {result : Except Abort (LinkedList.Fate Unit)} (reacts : Reacts p rule w r events w' result)
    (live : r = .ready → ¬Defunct rule.val w) : ∀ e ∈ events, e.Sound := by
  cases reacts <;> simp_all [Event.Sound]

/-- Undisturbed service calls callbacks on live descriptors only, if each rule was live in
an earlier world. -/
theorem Undisturbed.sound {entries : List (Node (Rule H) × PollFd)} {past : List (World σ)}
    (undisturbed : Undisturbed p past entries w)
    (tested : ∀ en ∈ entries, ∃ u ∈ past, ¬Defunct en.1.val u) :
    ∀ e ∈ (serveAll p entries w).events, e.Sound := by
  induction entries generalizing past w with
  | nil => simp [serveAll]
  | cons en entries ih =>
      obtain ⟨rule, e⟩ := en
      obtain ⟨u, member, live⟩ := tested _ (List.mem_cons_self ..)
      have here : ∀ event ∈ (serve p rule e w).events, event.Sound :=
        (serve_reacts p rule e w).sound fun ready => (undisturbed.1 ready).live member live
      cases result : (serve p rule e w).result with
      | error abort => rwa [serveAll_cons_of_error result]
      | ok fate =>
          have later := ih (undisturbed.2 fate result) fun en behind => by
            obtain ⟨u, member, live⟩ := tested en (List.mem_cons_of_mem _ behind)
            exact ⟨u, List.mem_append_left _ member, live⟩
          rw [serveAll_cons_of_ok result]
          intro event logged
          exact (List.mem_append.mp logged).elim (here event) (later event)

/-- An undisturbed call calls callbacks on live descriptors only. -/
theorem System.Undisturbed.sound {s : System σ H} {spare : Nat} {poll : Poll} {timeoutMs : Int}
    (undisturbed : System.Undisturbed p s (.waitNextEvent spare poll timeoutMs)) :
    ∀ e ∈ (waitNextEvent p spare poll timeoutMs s.rules s.world).trace, e.Sound := by
  have phases := waitNextEvent_phases p spare poll timeoutMs s.rules s.world
  generalize waitNextEvent p spare poll timeoutMs s.rules s.world = call at phases
  have setupSound := setupLoop_sound p spare s.rules s.world
  have tested := setupLoop_tested p spare s.rules s.world
  cases phases with
  | early first _ => rwa [first] at setupSound
  | @dispatched setup pollfds results stop first somebody goesOn vector second =>
      rw [first] at setupSound tested
      obtain ⟨-, events⟩ := dispatched_events first vector second
      have later : ∀ e ∈ results.events, e.Sound := by
        rw [events, vector]
        refine (undisturbed setup first somebody goesOn).sound fun en member => ?_
        have kept : en.1 ∈ setup.kept.map (·.1) := by
          rw [← setupLoop_nodes first]
          exact (List.of_mem_zip member).1
        obtain ⟨k, member, same⟩ := List.mem_map.mp kept
        obtain ⟨e, logged, live⟩ := tested k member
        exact ⟨e.before, List.mem_map_of_mem logged, same ▸ live⟩
      intro e member
      exact (List.mem_append.mp member).elim (setupSound e) (later e)

/-! ## The condition is exact -/

/-- No function brings a defunct descriptor back to life, as no member function of
`FileDescriptor` does. -/
structure Program.KeepsDefunct (p : Program σ H) : Prop where
  callback : ∀ h w (r : Rule H), Defunct r w → Defunct r (p.callback h w).world
  interest : ∀ h w (r : Rule H), Defunct r w → Defunct r (p.interest h w).world
  cancel : ∀ h w (r : Rule H), Defunct r w → Defunct r (p.cancel h w).world

namespace Program.KeepsDefunct

variable {r : Rule H} (keeps : p.KeepsDefunct) (defunct : Defunct r w)

include keeps defunct

theorem interestEffect (rule : Rule H) : Defunct r (p.interestEffect rule w).world :=
  p.interestEffect_rule (Defunct r ·.world) rule defunct fun h => keeps.interest h w r defunct

theorem cancelEffect (rule : Rule H) : Defunct r (p.cancelEffect rule w).world :=
  p.cancelEffect_rule (Defunct r ·.world) rule defunct fun h => keeps.cancel h w r defunct

theorem surveys {events : List (Event σ H)} {w' : World σ}
    {result : Except Abort (LinkedList.Fate Entry)}
    (surveys : Surveys p rule w events w' result) : Defunct r w' := by
  cases surveys with
  | cancelled | cancelThrew => exact keeps.cancelEffect defunct rule.val
  | entered | interestThrew => exact keeps.interestEffect defunct rule.val

theorem reacts {reaction : Reaction} {events : List (Event σ H)} {w' : World σ}
    {result : Except Abort (LinkedList.Fate Unit)}
    (reacts : Reacts p rule w reaction events w' result) : Defunct r w' := by
  cases reacts with
  | error | idle => exact defunct
  | hangup | hangupThrew => exact keeps.cancelEffect defunct rule.val
  | callbackThrew => exact keeps.callback _ w r defunct
  | serviced called =>
      have after := keeps.callback rule.val.callback w r defunct
      rwa [called] at after
  | uninterested called | busy called | interestThrew called =>
      have after := keeps.callback rule.val.callback w r defunct
      rw [called] at after
      exact keeps.interestEffect after rule.val

end Program.KeepsDefunct

theorem Surveys.before_eq {events : List (Event σ H)} {w' : World σ}
    {result : Except Abort (LinkedList.Fate Entry)} (surveys : Surveys p rule w events w' result) :
    ∀ e ∈ events, e.before = w := by
  cases surveys <;> simp [Event.before]

/-- What was defunct when a function was called in the first loop is so afterwards. -/
theorem Program.KeepsDefunct.setupLoop (keeps : p.KeepsDefunct) (spare : Nat)
    (rules : LinkedList (Rule H)) (w : World σ) :
    ∀ e ∈ (setupLoop p spare rules w).1.events, ∀ r : Rule H,
      Defunct r e.before → Defunct r (EventLoop.setupLoop p spare rules w).1.world := by
  refine LinkedList.walk_invariant
    (fun s : Walk (Rule H) (World σ) (Event σ H) Entry =>
      ∀ e ∈ s.events, ∀ r : Rule H, Defunct r e.before → Defunct r s.world)
    (fun s rule _ seen e member r defunct => ?_) (by simp [Walk.start])
  have surveys := setupBody_surveys p s.visited.length rule s.world
  rw [Walk.visit_world]
  rw [Walk.visit_events] at member
  rcases List.mem_append.mp member with old | new
  · exact keeps.surveys (seen e old r defunct) surveys
  · rw [surveys.before_eq e new] at defunct
    exact keeps.surveys defunct surveys

theorem Reacts.called {events : List (Event σ H)} {w' : World σ}
    {result : Except Abort (LinkedList.Fate Unit)}
    (reacts : Reacts p rule w .ready events w' result) :
    ∃ returned, Event.callback rule w returned ∈ events := by
  cases reacts <;> exact ⟨_, List.mem_cons_self ..⟩

/-- Service that calls callbacks on live descriptors only is undisturbed. -/
theorem Undisturbed.of_sound (keeps : p.KeepsDefunct) {entries : List (Node (Rule H) × PollFd)}
    {past : List (World σ)} (sound : ∀ e ∈ (serveAll p entries w).events, e.Sound)
    (seen : ∀ u ∈ past, ∀ r : Rule H, Defunct r u → Defunct r w) :
    Undisturbed p past entries w := by
  induction entries generalizing past w with
  | nil => trivial
  | cons en entries ih =>
      obtain ⟨rule, e⟩ := en
      have reacts := serve_reacts p rule e w
      refine ⟨fun ready => ?_, fun fate result => ?_⟩
      · rw [ready] at reacts
        obtain ⟨returned, called⟩ := reacts.called
        have live : ¬Defunct rule.val w := sound _ (serve_events_subset p rule e entries w called)
        refine (List.pairwise_of_forall_mem_list fun u _ u' member _ defunct => ?_).isChain
        rcases List.mem_append.mp member with old | new
        · exact live (seen u' old rule.val defunct)
        · exact live (List.mem_singleton.mp new ▸ defunct)
      · rw [serveAll_cons_of_ok result] at sound
        refine ih (fun e member => sound e (List.mem_append_right _ member)) ?_
        intro u member r defunct
        rcases List.mem_append.mp member with old | new
        · exact keeps.reacts (seen u old r defunct) reacts
        · rw [List.mem_singleton.mp new] at defunct
          exact keeps.reacts defunct reacts

/-- Where defunct descriptors stay so, a call is undisturbed if and only if it calls
callbacks on live descriptors only. -/
theorem System.undisturbed_iff (keeps : p.KeepsDefunct) (s : System σ H) (spare : Nat) (poll : Poll)
    (timeoutMs : Int) :
    System.Undisturbed p s (.waitNextEvent spare poll timeoutMs) ↔
      ∀ e ∈ (waitNextEvent p spare poll timeoutMs s.rules s.world).trace, e.Sound := by
  refine ⟨fun undisturbed => undisturbed.sound, fun sound => ?_⟩
  intro setup first somebody answer goesOn
  have trace : (waitNextEvent p spare poll timeoutMs s.rules s.world).trace = setup.events ++
      (resultLoop p (reported (setup.kept.map (·.2.pollfd)) answer) setup.list
        setup.world).1.events := by
    simp [waitNextEvent, first, somebody, goesOn, answer]
  have seen := keeps.setupLoop spare s.rules s.world
  rw [first] at seen
  rw [trace, resultLoop_events (setupLoop_aligned first answer)] at sound
  refine EventLoop.Undisturbed.of_sound keeps
    (fun e member => sound e (List.mem_append_right _ member)) fun u member r defunct => ?_
  obtain ⟨e, logged, rfl⟩ := List.mem_map.mp member
  exact seen e logged r defunct

/-- **No callback on a defunct descriptor**, in every run whose calls are undisturbed. -/
theorem callbacks_sound {w : World σ} {ops : List (Op σ H)}
    (undisturbed : Runs.Along (System.step p) (System.Undisturbed p) (System.initial w) ops) :
    ∀ e ∈ (Runs.run (System.step p) (System.initial w) ops).1.history, e.Sound := by
  have preserved : ∀ (s : System σ H) (op : Op σ H), (∀ e ∈ s.history, e.Sound) →
      System.Undisturbed p s op → ∀ e ∈ (System.step p s op).1.history, e.Sound := by
    intro s op sound here
    cases op with
    | addRule rule => exact sound
    | other change => exact sound
    | waitNextEvent spare poll timeoutMs =>
        intro e member
        exact (List.mem_append.mp member).elim (sound e) (here.sound e)
  exact Runs.run_invariant preserved (by simp [System.initial]) undisturbed

/-- A program for a socket: one function reads a byte, one writes, and one reads a byte
and closes. -/
def socketProgram : Program Unit Nat where
  callback h w :=
    match h with
    | 0 => ⟨w.update 0 fun wrapper => (FileDescriptor.read wrapper 1 ⟨1, 0⟩ [0]).1, [], .ok ()⟩
    | 1 => ⟨w.update 0 FDWrapper.registerWrite, [], .ok ()⟩
    | _ =>
        ⟨w.update 0 fun wrapper => ((FileDescriptor.read wrapper 1 ⟨1, 0⟩ [0]).1.close ⟨0, 0⟩).1,
          [], .ok ()⟩
  interest _ w := ⟨w, [], .ok true⟩
  cancel _ w := ⟨w, [], .ok ()⟩

/-- Two rules on one socket, which no callback closes: both callbacks are called. -/
theorem callbacks_sound_socket :
    let history := (Runs.run (System.step socketProgram) (System.initial openWorld)
      [.addRule ⟨0, .In, 0, none, none⟩, .addRule ⟨0, .Out, 1, none, none⟩,
        .waitNextEvent 0 allReady (-1)]).1.history
    history.length = 4 ∧ ∀ e ∈ history, e.Sound := by
  refine ⟨by decide +kernel, callbacks_sound ⟨trivial, trivial, fun setup first _ _ => ?_, trivial⟩⟩
  obtain rfl := congrArg Prod.fst first
  refine ⟨fun _ => ?_, fun _ _ => ⟨fun _ => ?_, fun _ _ => trivial⟩⟩
  · decide +kernel
  · decide +kernel

/-- Two rules on one socket. The callback of the first one closes it, and the callback of
the second one is called nevertheless. -/
theorem socket_not_sound :
    ¬∀ e ∈ (Runs.run (System.step socketProgram) (System.initial openWorld)
      [.addRule ⟨0, .In, 2, none, none⟩, .addRule ⟨0, .Out, 1, none, none⟩,
        .waitNextEvent 0 allReady (-1)]).1.history, e.Sound := by
  decide +kernel

end EventLoop

end Sponge
