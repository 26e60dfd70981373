import SensorHub.Proofs.Books
import SensorHub.Proofs.Phases

namespace SensorHub

variable {σ : Type}

namespace Hub

variable {hub hub' : Hub σ} {posting : Posting σ} {frames : List (Frame σ)}

theorem queue_detach (hub : Hub σ) (posting : Posting σ) :
    (hub.detach posting).1.queue = hub.queue := by
  unfold detach
  split <;> rfl

end Hub

namespace Frame

variable {hub hub' : Hub σ} {frame : Frame σ} {frames rest : List (Frame σ)}

def isClosing : Frame σ → Bool
  | .drain | .clear | .exit => true
  | _ => false

/-- The frame can do nothing but release events and take apps down. -/
def isTeardown : Frame σ → Bool
  | .code (.loop _) _ | .code (.start _ _ _) _ => false
  | .code _ _ | .evict _ | .vacate _ | .remove _ _ | .release _ _ _ | .erase _ _ _ => true
  | _ => false

theorem isClosing_of_isPhase (h : frame.isPhase = false) : frame.isClosing = false := by
  cases frame with
  | drain | clear | exit => cases h
  | _ => rfl

theorem isTeardown_detach (hub : Hub σ) (posting : Posting σ) :
    ∀ f ∈ (hub.detach posting).2, f.isTeardown = true := by
  unfold Hub.detach
  split <;> simp [isTeardown]

theorem isTeardown_posted {posting : Posting σ} (stopped : hub.running = false)
    (h : hub.Posted posting hub' frames) :
    hub'.queue = hub.queue ∧ ∀ f ∈ frames, f.isTeardown = true := by
  cases h with
  | queued running | reserved running | dropped _ running =>
    rw [stopped] at running
    cases running
  | @refused hub₁ _ _ _ calm _ hd =>
    have hqueue := Hub.queue_detach hub₁ posting
    have hframes := isTeardown_detach hub₁ posting
    rw [hd] at hqueue hframes
    exact ⟨hqueue.trans calm.queue, hframes⟩
  | discarded => exact ⟨rfl, by simp⟩

/-- On a hub that has stopped nothing is queued by what releases events and takes apps down. -/
theorem step_teardown (placed : ∀ i, frame.index? = some i → i < hub.apps.length)
    (stopped : hub.running = false) (teardown : frame.isTeardown = true)
    (h : frame.step hub = .go hub' frames) :
    hub'.queue = hub.queue ∧ ∀ f ∈ frames, f.isTeardown = true := by
  cases frame with
  | code actor routine =>
    have goes : ∀ next, (Frame.code actor next).isTeardown = true := by
      intro next
      cases actor with
      | loop | start => cases teardown
      | handle | release | entry => rfl
    cases Routine.step_outcome placed h with
    | quiet calm side => exact ⟨calm.queue, by simp [goes]⟩
    | tuned => exact ⟨rfl, by simp [goes]⟩
    | @post _ _ way event completion _ _ _ _ _ kind posted =>
      have stopped' : (hub.offer way event completion).2.running = false := stopped
      obtain ⟨hq, hf⟩ := isTeardown_posted stopped' posted
      refine ⟨hq, fun f hm => ?_⟩
      rcases List.mem_append.mp hm with hm | hm
      · exact hf f hm
      · rw [List.mem_singleton.mp hm]
        exact goes _
    | ended place calm side => exact ⟨calm.queue, by simp⟩
    | left => exact ⟨rfl, by simp⟩
    | _ => cases teardown
  | evict handles =>
    cases handles with
    | nil =>
      cases h
      exact ⟨rfl, by simp⟩
    | cons handle rest =>
      rcases Hub.releaseEvicted_cases hub handle with ⟨posting, -, hr⟩ | ⟨-, hr⟩
      · simp only [step, hr] at h
        cases h
        refine ⟨Hub.queue_detach ((hub.take handle).2.record (.evicted posting.serial)) posting,
          fun f hf => ?_⟩
        simp only [List.append_assoc, List.mem_append, List.mem_cons, List.not_mem_nil,
          or_false] at hf
        rcases hf with hf | rfl | rfl
        · exact isTeardown_detach _ posting f hf
        · rfl
        · rfl
      · simp only [step, hr] at h
        cases h
        exact ⟨rfl, by simp [isTeardown]⟩
  | vacate handle =>
    cases h
    exact ⟨by simp only [Hub.vacate, Hub.logAll_eq], by simp⟩
  | remove index started =>
    rcases Hub.removeAt_cases h with
      ⟨-, rfl, rfl⟩ | ⟨app, -, ⟨-, rfl, rfl⟩ | ⟨-, rfl, rfl⟩⟩
    · exact ⟨rfl, by simp⟩
    · exact ⟨rfl, by simp [isTeardown]⟩
    · exact ⟨rfl, by simp [isTeardown]⟩
  | release load info managers =>
    cases managers with
    | nil =>
      cases h
      exact ⟨rfl, by simp⟩
    | cons manager rest =>
      cases h
      exact ⟨rfl, by simp [isTeardown]⟩
  | erase =>
    cases h
    exact ⟨rfl, by simp⟩
  | _ => cases teardown

/-- The shutdown of a hub. -/
structure Shutting (hub : Hub σ) (frames : List (Frame σ)) : Prop where
  stopped : ∀ f ∈ frames, f.isClosing = true → hub.running = false
  /-- The end waits for the last pass over the queue; then the queue is empty for good. -/
  drained : ∀ upper lower, frames = upper ++ .exit :: lower →
    (∃ upper', upper = upper' ++ [.drain]) ∨
      (hub.queue.toList = [] ∧ ∀ f ∈ upper, f.isTeardown = true)

/-- What a step pushes belongs to a shutdown only if the hub has stopped. -/
theorem step_closing (placed : ∀ i, frame.index? = some i → i < hub.apps.length)
    (h : frame.step hub = .go hub' frames) :
    (hub'.running = true → hub.running = true) ∧
      ∀ f ∈ frames, f.isClosing = true → frame.isClosing = true ∨ hub.running = false := by
  cases step_turn placed h with
  | stay ordinary same none =>
    refine ⟨same.running, fun f hf hc => ?_⟩
    rw [isClosing_of_isPhase (none f hf)] at hc
    cases hc
  | await running => exact ⟨fun _ => running, by simp [isClosing]⟩
  | close stopped => exact ⟨fun h => h, fun _ _ _ => .inr stopped⟩
  | drain side | drained side => exact ⟨(SamePhase.of_loopSide side).running, fun _ _ _ => .inl rfl⟩
  | clear | cleared => exact ⟨fun h => h, fun _ _ _ => .inl rfl⟩
  | mark | spare | gone | unmark => exact ⟨fun h => h, by simp [isClosing]⟩
  | settle side light =>
    refine ⟨(SamePhase.of_loopSide side).running, fun f hf hc => ?_⟩
    simp only [List.mem_append, List.mem_cons, List.not_mem_nil, or_false] at hf
    rcases hf with hf | rfl | rfl
    · rw [isClosing_of_isPhase (isPhase_of_isLight (light f hf))] at hc
      cases hc
    · cases hc
    · cases hc

private theorem drained_upper {upper : List (Frame σ)} {f : Frame σ}
    (h : ∃ upper', f :: upper = upper' ++ [.drain]) :
    (upper = [] ∧ f = .drain) ∨ ∃ upper', upper = upper' ++ [.drain] := by
  obtain ⟨upper', he⟩ := h
  cases upper' with
  | nil =>
    cases he
    exact .inl ⟨rfl, rfl⟩
  | cons g upper' =>
    cases he
    exact .inr ⟨upper', rfl⟩

/-- Only a hub that begins to shut down sets its end, with everything that comes before it. -/
theorem step_exit {upper lower : List (Frame σ)}
    (placed : ∀ i, frame.index? = some i → i < hub.apps.length)
    (h : frame.step hub = .go hub' (upper ++ .exit :: lower)) :
    upper = [.drain, .clear, .drain] := by
  have hmem : Frame.exit ∈ upper ++ .exit :: lower :=
    List.mem_append_right _ (List.mem_cons_self ..)
  generalize hf : upper ++ Frame.exit :: lower = frames at h hmem
  cases step_turn placed h with
  | stay ordinary same none => exact absurd (none _ hmem) (by simp [isPhase])
  | close =>
    rcases upper with _ | ⟨first, _ | ⟨second, _ | ⟨third, _ | ⟨fourth, upper⟩⟩⟩⟩
    · cases hf
    · cases hf
    · cases hf
    · cases hf
      rfl
    · simp at hf
  | settle side light =>
    simp only [List.mem_append, List.mem_cons, reduceCtorEq, List.not_mem_nil, or_self,
      or_false] at hmem
    have hlight := light _ hmem
    cases hlight
  | _ => simp at hmem

theorem step_shutting (placed : ∀ i, frame.index? = some i → i < hub.apps.length)
    (hs : Shutting hub (frame :: rest)) (h : frame.step hub = .go hub' frames) :
    Shutting hub' (frames ++ rest) := by
  obtain ⟨hrunning, hclosing⟩ := step_closing placed h
  have hstays : hub.running = false → hub'.running = false := by
    intro hr
    cases hr' : hub'.running with
    | true => rw [hrunning hr'] at hr; cases hr
    | false => rfl
  refine ⟨fun f hf hc => ?_, fun upper lower he => ?_⟩
  · rcases List.mem_append.mp hf with hf | hf
    · rcases hclosing f hf hc with hframe | hr
      · exact hstays (hs.stopped frame (List.mem_cons_self ..) hframe)
      · exact hstays hr
    · exact hstays (hs.stopped f (List.mem_cons_of_mem _ hf) hc)
  · -- the end was there before: either the last pass goes on, or nothing can be queued
    have before : ∀ above, rest = above ++ .exit :: lower →
        (∃ upper', frames ++ above = upper' ++ [.drain]) ∨
          (hub'.queue.toList = [] ∧ ∀ f ∈ frames ++ above, f.isTeardown = true) := by
      intro above hrest
      rw [hrest] at hs
      rcases hs.drained (frame :: above) lower rfl with hdrain | ⟨hempty, hteardown⟩
      · rcases drained_upper hdrain with ⟨rfl, rfl⟩ | ⟨above', rfl⟩
        · cases step_turn placed h with
          | stay ordinary => cases ordinary
          | drain => exact .inl ⟨[.discard _], by simp; rfl⟩
          | drained _ empty => exact .inr ⟨empty, by simp⟩
        · exact .inl ⟨frames ++ above', by simp⟩
      · have hstopped : hub.running = false :=
          hs.stopped .exit (by simp) rfl
        obtain ⟨hqueue, hnew⟩ := step_teardown placed hstopped (hteardown frame (List.mem_cons_self ..)) h
        refine .inr ⟨hqueue ▸ hempty, fun f hf => ?_⟩
        rcases List.mem_append.mp hf with hf | hf
        · exact hnew f hf
        · exact hteardown f (List.mem_cons_of_mem _ hf)
    rcases List.append_eq_append_iff.mp he with ⟨above, rfl, hrest⟩ | ⟨above, hframes, hlower⟩
    · exact before above hrest
    · cases above with
      | nil =>
        have hupper : frames = upper := by simpa using hframes
        have hold := before [] hlower.symm
        rwa [List.append_nil, hupper] at hold
      | cons f above =>
        cases hlower
        rw [hframes] at h
        exact .inl ⟨[.drain, .clear], step_exit placed h⟩

end Frame

namespace Machine

theorem Reachable.shutting {m : Machine σ} (hm : m.Reachable) :
    Frame.Shutting m.hub m.frames := by
  refine hm.keeps (P := Frame.Shutting) ?_ ?_ ?_
  · intro config collaborators memory now routine _
    refine ⟨by simp [Frame.isClosing], fun upper lower he => ?_⟩
    have hmem : Frame.exit ∈ [Frame.code (.loop .outside) routine] := by
      rw [he]
      exact List.mem_append_right _ (List.mem_cons_self ..)
    simp at hmem
  · intro hub hub' frame frames rest hm hp h
    exact Frame.step_shutting hm.nested.1 hp h
  · intro hub frames routine hp
    refine ⟨fun f hf hc => ?_, fun upper lower he => ?_⟩
    · rcases List.mem_cons.mp hf with rfl | hf
      · cases hc
      · exact hp.stopped f hf hc
    · cases upper with
      | nil => cases he
      | cons f upper =>
        cases he
        rcases hp.drained upper lower rfl with ⟨upper', rfl⟩ | ⟨hempty, hteardown⟩
        · exact .inl ⟨_ :: upper', rfl⟩
        · refine .inr ⟨hempty, fun f hf => ?_⟩
          rcases List.mem_cons.mp hf with rfl | hf
          · rfl
          · exact hteardown f hf

theorem Reachable.queue_exit {hub : Hub σ} {rest : List (Frame σ)}
    (hm : Reachable ⟨hub, .exit :: rest⟩) : hub.queue.toList = [] := by
  rcases hm.shutting.drained [] rest rfl with ⟨upper', he⟩ | ⟨hempty, -⟩
  · simp at he
  · exact hempty

end Machine

end SensorHub
