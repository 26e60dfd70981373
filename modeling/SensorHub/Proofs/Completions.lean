import SensorHub.Proofs.Closing
import SensorHub.Proofs.Shutdown

namespace SensorHub

variable {σ : Type}

open Ledger

namespace Machine

variable {m m' m₁ m₂ : Machine σ} {serial : Nat}

/-- Somewhere on the way from one machine to another the code that completes the event with this
number has just begun. -/
def Began (m m' : Machine σ) (serial : Nat) (completion : Completion σ) : Prop :=
  ∃ called posting, m.Reaches called ∧ called.Reaches m' ∧ posting.serial = serial ∧
    posting.completion = completion ∧ Vouched called.hub.journal posting ∧
    posting.Begun called.hub called.frames

theorem Began.move {completion : Completion σ} (h : m.Began m₁ serial completion)
    (hmove : Move m₁ m₂) : m.Began m₂ serial completion := by
  obtain ⟨called, posting, hr, hr', rest⟩ := h
  exact ⟨called, posting, hr, hr'.tail hmove, rest⟩

/-- An event that is done along a run has begun what completes it, on the way. -/
theorem Reaches.began (hm : m.Reachable) (h : m.Reaches m') (hlt : serial < m.hub.postings)
    {completion : Completion σ}
    (hc : ∀ p ∈ m.books.pending ++ m.books.out, p.serial = serial → p.completion = completion)
    (hbegan : tally Incident.closes? serial m.hub.journal = 0 ∨ m.Began m serial completion) :
    tally Incident.closes? serial m'.hub.journal = 0 ∨ m.Began m' serial completion := by
  induction h with
  | refl => exact hbegan
  | @tail m₁ m₂ hr hmove ih =>
    rcases ih with h0 | hbegan
    · have hm₁ := hm.reaches hr
      cases hmove with
      | interrupt routine => exact .inl h0
      | step hs =>
        have hmove := Move.step hs
        obtain ⟨hub, frame, rest, hub', frames, rfl, hgo, rfl⟩ := step_eq_stepped.mp hs
        have hmoves := Reaches.books hm hr
        have hlt₁ : serial < hub.postings := Nat.lt_of_lt_of_le hlt hmoves.journal.1
        rcases (hm₁.traffic hgo).begun hm₁.tidy hm₁.balanced hlt₁ with
          hsame | ⟨p, hp, hps, hb, -⟩
        · exact .inl (hsame.trans h0)
        · have hvouched : Vouched hub'.journal p := by
            refine (hm₁.balanced.vouched p hp).mono fun i hi => ?_
            exact (hm₁.moves hm₁.balanced hgo).remembers hi
          exact .inr ⟨_, p, hr.tail hmove, .refl, hps, hmoves.completion hlt hc p hp hps, hvouched,
            hb.append rest⟩
    · exact .inr (hbegan.move hmove)

/-- In a step a machine hands an event over for posting. -/
structure Hands (m m' : Machine σ) (way : Way) (event : Event) (completion : Completion σ) :
    Prop where
  kind : Hub.Matches way event completion
  posted : ∃ upper lower, m'.frames = upper ++ lower ∧ lower.flatMap Frame.cargo = m.cargo ∧
    (m.hub.offer way event completion).2.Posted (m.hub.offer way event completion).1 m'.hub upper

section Hands

variable {way : Way} {event : Event} {completion : Completion σ}

private theorem Hands.moves (hm : m.Reachable) (h : Hands m m' way event completion)
    (hrun : (∀ work, completion ≠ .work work) ∨ m.hub.running = true) :
    Moves ((m.hub.offer way event completion).2.books
      (.waiting (m.hub.offer way event completion).1 :: m.cargo)) m'.books := by
  obtain ⟨upper, lower, hframes, hcargo, posted⟩ := h.posted
  have hplain : ∀ work, completion ≠ .work work ∨
      (m.hub.offer way event completion).2.running = true := by
    intro work
    exact hrun.imp (fun h => h work) fun h => h
  have hmoves := Hub.moves_posted (hm.tidy.offer way event completion) hplain posted
  have hbooks : m'.cargo = upper.flatMap Frame.cargo ++ m.cargo := by
    rw [cargo, hframes, List.flatMap_append, hcargo]
  rw [books, hbooks]
  exact hmoves

private theorem Hands.offered (hm : m.Reachable) (h : Hands m m' way event completion)
    (hrun : (∀ work, completion ≠ .work work) ∨ m.hub.running = true) :
    m.hub.postings < m'.hub.postings ∧
      .offered m.hub.postings way event completion.hasCallback ∈ m'.hub.journal := by
  have hmoves := h.moves hm hrun
  exact ⟨hmoves.journal.1, hmoves.remembers (List.mem_cons_self ..)⟩

private theorem Hands.completes (hm : m.Reachable) (h : Hands m m' way event completion)
    (hrun : (∀ work, completion ≠ .work work) ∨ m.hub.running = true) :
    ∀ p ∈ m'.books.pending ++ m'.books.out, p.serial = m.hub.postings →
      p.completion = completion := by
  refine (h.moves hm hrun).completion (Nat.lt_succ_self _) fun p hp hs => ?_
  have hold : ∀ q ∈ m.books.pending ++ m.books.out, q.serial ≠ m.hub.postings := by
    intro q hq
    exact Nat.ne_of_lt (hm.balanced.lt_next (List.mem_map_of_mem hq))
  have hperm : (((m.hub.offer way event completion).2.books
        (.waiting (m.hub.offer way event completion).1 :: m.cargo)).pending ++
      m.books.out).Perm ((m.hub.offer way event completion).1 ::
        (m.books.pending ++ m.books.out)) :=
    List.perm_middle.append_right _
  rcases List.mem_cons.mp (hperm.mem_iff.mp hp) with rfl | hp
  · rfl
  · exact absurd hs (hold p hp)

private theorem Hands.began (hm : m.Reachable) (h : Hands m m' way event completion)
    (hrun : (∀ work, completion ≠ .work work) ∨ m.hub.running = true) :
    tally Incident.closes? m.hub.postings m'.hub.journal = 0 ∨
      Began m' m' m.hub.postings completion := by
  obtain ⟨-, hoffered⟩ := h.offered hm hrun
  obtain ⟨upper, lower, hframes, -, posted⟩ := h.posted
  have hzero : tally Incident.closes? m.hub.postings
      (m.hub.offer way event completion).2.journal = 0 :=
    (Hub.closes_cons (by simp [Incident.closes?])).trans
      (hm.balanced.bounded m.hub.postings (Nat.le_refl _)).2
  rcases Hub.begun_posted (hm.tidy.offer way event completion).sound posted lower with
    hsame | ⟨-, hbegun | ⟨work, hw, stopped⟩⟩
  · exact .inl (hsame.trans hzero)
  · have hvouched : Vouched m'.hub.journal (m.hub.offer way event completion).1 :=
      ⟨way, event, hoffered, h.kind, rfl⟩
    refine .inr ⟨m', _, .refl, .refl, rfl, rfl, hvouched, ?_⟩
    rw [hframes]
    exact hbegun
  · rcases hrun with hplain | hr
    · exact absurd hw (hplain work)
    · cases hr.symm.trans stopped

/-- What was handed over and is owned by nobody any more was done once, and what completes it had
begun. -/
private theorem Hands.done (hm₁ : m₁.Reachable) (hm₂ : m₂.Reachable)
    (h : Hands m₁ m₂ way event completion)
    (hrun : (∀ work, completion ≠ .work work) ∨ m₁.hub.running = true)
    (hdue : (completion.hasCallback || way.isWork) = true) (hr : m₂.Reaches m)
    (hown : m.books.owned = []) :
    .offered m₁.hub.postings way event completion.hasCallback ∈ m.hub.journal ∧
      (∃ incident, m.hub.journal.filter (fun i => i.closes? == some m₁.hub.postings) =
        [incident]) ∧ Began m₂ m m₁.hub.postings completion := by
  obtain ⟨hlt, hoffered⟩ := h.offered hm₁ hrun
  have hb := (hm₂.reaches hr).balanced
  have hmem : .offered m₁.hub.postings way event completion.hasCallback ∈ m.hub.journal :=
    Reaches.remembers hm₂ hr hoffered
  obtain ⟨incident, hone⟩ := hb.done_once hown hmem hdue
  refine ⟨hmem, ⟨incident, hone⟩, ?_⟩
  rcases Reaches.began hm₂ hr hlt (h.completes hm₁ hrun) (h.began hm₁ hrun) with hzero | hbegan
  · have hlen : [incident].length = 0 := by
      rw [← hone, ← hzero]
      exact length_closing _
    cases hlen
  · exact hbegan

end Hands

/-- The code on top is about to post an event with a free callback: as a critical event, as one
that may be dropped, or as the event of an app. -/
inductive Posts (m : Machine σ) (event : Event) (callback : FreeCallback σ) : Prop
  | critical {r a} {actor : Actor σ r a} {next rest}
      (h : m.frames = .code actor (.post event (some callback) next) :: rest)
  | droppable {r a} {actor : Actor σ r a} {next rest}
      (h : m.frames = .code actor (.postLow event (some callback) next) :: rest)
  | sent {a} {actor : Actor σ .app a} {next rest}
      (h : m.frames = .code actor (.send event (some callback) next) :: rest)

def Returns (m m' : Machine σ) : Prop :=
  (∃ next, m.frames = [.exit, .code (.loop .outside) next]) ∧ m.step = .stepped m'

private theorem cargo_code {r : Reach} {a : Answer} {actor : Actor σ r a}
    (routine next : Routine σ r a) :
    (Frame.code actor next).cargo = (Frame.code actor routine).cargo := by
  cases actor <;> rfl

/-- A machine that posts an event hands it over with its type and its payload. -/
private theorem Posts.hands {event : Event} {callback : FreeCallback σ} (hm : m.Reachable)
    (hp : m.Posts event callback) (hs : m.step = .stepped m') :
    ∃ way event', event'.type = event.type ∧ event'.payload = event.payload ∧
      Hands m m' way event' (.free callback) := by
  obtain ⟨hub, frame, rest, hub', frames, rfl, hgo, rfl⟩ := step_eq_stepped.mp hs
  have hnested := hm.nested
  have plain : ∀ work, (Completion.free callback : Completion σ) ≠ .work work :=
    fun _ h => by cases h
  cases hp with
  | @critical r a actor next below h =>
    cases h
    simp only [Frame.step, Routine.step] at hgo
    obtain ⟨upper, hpost, rfl⟩ := Effect.above_eq_go.mp hgo
    refine ⟨.critical, Hub.critical event, rfl, rfl, .critical event (some callback), upper,
      .code actor next :: rest, by simp, ?_, Hub.posted_of_postCritical plain rfl rfl hpost⟩
    simp only [cargo, List.flatMap_cons, cargo_code (.post event (some callback) next) next]
  | @droppable r a actor next below h =>
    cases h
    simp only [Frame.step, Routine.step] at hgo
    cases hgo
    refine ⟨.low, { event with lowPriority := true }, rfl, rfl, .low (some callback) rfl, _,
      .code actor (next _) :: rest, by simp; rfl, ?_, Hub.posted_of_postDroppable plain rfl⟩
    simp only [cargo, List.flatMap_cons,
      cargo_code (.postLow event (some callback) next) (next _)]
  | @sent a actor next below h =>
    cases h
    have ha : ∃ app, hub.apps[actor.index]? = some app := by
      cases actor with
      | start | entry => exact ⟨_, List.getElem?_eq_getElem (hnested.1 _ rfl)⟩
    obtain ⟨app, ha⟩ := ha
    simp only [Frame.step, Routine.step, ha] at hgo
    cases hgo
    refine ⟨.low, { event with sender := app.nanoapp.info.instanceId, lowPriority := true }, rfl,
      rfl, .low (some callback) rfl, _, .code actor (next _) :: rest, by simp; rfl, ?_,
      Hub.posted_of_postDroppable plain rfl⟩
    simp only [cargo, List.flatMap_cons,
      cargo_code (.send event (some callback) next) (next _)]

private theorem request_eq (hub : Hub σ) (work : SystemWork σ) :
    hub.request work =
      if hub.running then
        (true, (hub.offer (Hub.wayOf work) (.system work.kind) (.work work)).2.postRunning
          (hub.offer (Hub.wayOf work) (.system work.kind) (.work work)).1)
      else
        (false, .go ((hub.offer (Hub.wayOf work) (.system work.kind) (.work work)).2.record
          (.discarded hub.postings)) []) :=
  rfl

/-- A machine that asks for work hands it over; the answer says whether the hub runs, and a hub
that has stopped throws the work away. -/
private theorem request_hands {r : Reach} {a : Answer} {actor : Actor σ r a}
    {work : SystemWork σ} {next : Bool → Routine σ r a} {rest : List (Frame σ)}
    (h : m.frames = .code actor (.request work next) :: rest) (hs : m.step = .stepped m') :
    (∃ upper, m'.frames = upper ++ .code actor (next m.hub.running) :: rest) ∧
      Hands m m' (Hub.wayOf work) (.system work.kind) (.work work) ∧
      (m.hub.running = false → m'.hub.journal = .discarded m.hub.postings ::
        .offered m.hub.postings (Hub.wayOf work) (.system work.kind) false :: m.hub.journal) := by
  obtain ⟨hub, frame, below, hub', frames, rfl, hgo, rfl⟩ := step_eq_stepped.mp hs
  cases h
  have hanswer : (hub.request work).1 = hub.running := by
    rw [request_eq]
    cases hub.running <;> rfl
  simp only [Frame.step, Routine.step] at hgo
  obtain ⟨upper, hpost, rfl⟩ := Effect.above_eq_go.mp hgo
  rw [hanswer]
  refine ⟨⟨upper, by simp⟩, ⟨.work work, upper, .code actor (next hub.running) :: rest, by simp,
    ?_, Hub.posted_of_request hpost⟩, fun stopped => ?_⟩
  · simp only [cargo, List.flatMap_cons, cargo_code (.request work next) (next hub.running)]
  · have hstopped : hub.running = false := stopped
    rw [request_eq, hstopped] at hpost
    cases hpost
    rfl

theorem Returns.owned (hm : m.Reachable) (h : m.Returns m') : m'.books.owned = [] := by
  obtain ⟨⟨next, hframes⟩, hs⟩ := h
  obtain ⟨hub, stack⟩ := m
  obtain rfl : stack = [.exit, .code (.loop .outside) next] := hframes
  have hqueue := hm.queue_exit
  cases hs
  have hqueue' : (hub.log .exiting).queue.toList = [] := hqueue
  simp [books, Ledger.owned, Hub.books, cargo, Frame.cargo, hqueue']

/-- The callback of a posted event begins once, with the event's type and payload, and after all
handling of the event. -/
private theorem freed_once {event : Event} {callback : FreeCallback σ} (hm₁ : m₁.Reachable)
    (hp : m₁.Posts event callback) (hs : m₁.step = .stepped m₂) (hr : m₂.Reaches m)
    (hown : m.books.owned = []) :
    m.hub.journal.filter (fun i => i.closes? == some m₁.hub.postings) =
        [.freed m₁.hub.postings event.type event.payload] ∧
      (∃ called purpose rest, m₂.Reaches called ∧ called.Reaches m ∧
        called.frames = .code (.handle purpose) (callback event.type event.payload) :: rest ∧
        called.hub.journal.head? = some (.freed m₁.hub.postings event.type event.payload)) ∧
      ∀ later earlier, m.hub.journal =
          later ++ .freed m₁.hub.postings event.type event.payload :: earlier →
        tally Incident.enters? m₁.hub.postings later = 0 ∧
        tally Incident.leaves? m₁.hub.postings later = 0 ∧
        tally Incident.enters? m₁.hub.postings earlier =
          tally Incident.leaves? m₁.hub.postings earlier := by
  obtain ⟨way, event', htype, hpayload, hands⟩ := hp.hands hm₁ hs
  have hm₂ := hm₁.move (.step hs)
  have hm := hm₂.reaches hr
  have hb := hm.balanced
  have hunique : tally Incident.offers? m₁.hub.postings m.hub.journal ≤ 1 := hb.offers_le _
  obtain ⟨hoffered, ⟨incident, hone⟩, called, posting, hr₁, hr₂, hserial, hcompletion, hvouched,
    hbegun⟩ := hands.done hm₁ hm₂ (.inl fun _ h => by cases h) rfl hr hown
  have hmem := (mem_closing hone incident).mp rfl
  have hincident : incident = .freed m₁.hub.postings event.type event.payload := by
    by_cases hfreed : ∀ type payload, incident ≠ .freed m₁.hub.postings type payload
    · obtain ⟨way', event'', ho⟩ := hb.worked incident hmem.1 _ hmem.2 hfreed
      have hcb := (offered_unique hunique hoffered ho).2.2
      cases hcb
    · push Not at hfreed
      obtain ⟨type, payload, rfl⟩ := hfreed
      obtain ⟨way', event'', ho, ht, hpl⟩ := hb.freed _ _ _ hmem.1
      obtain ⟨-, he, -⟩ := offered_unique hunique hoffered ho
      rw [ht, hpl, ← he, htype, hpayload]
  refine ⟨by rw [hone, hincident], ?_, fun later earlier hj => ?_⟩
  · obtain ⟨way', event'', ho, -, he⟩ := hvouched
    have ho' : .offered m₁.hub.postings way' event'' posting.completion.hasCallback ∈
        m.hub.journal := hserial ▸ Reaches.remembers (hm₂.reaches hr₁) hr₂ ho
    obtain ⟨-, he', -⟩ := offered_unique hunique hoffered ho'
    have htype' : posting.event.type = event.type := by rw [he, ← he', ← htype]
    have hpayload' : posting.event.payload = event.payload := by rw [he, ← he', ← hpayload]
    obtain ⟨⟨purpose, rest, hf⟩, earlier, hjournal⟩ := hbegun.1 callback hcompletion
    rw [htype', hpayload'] at hf hjournal
    rw [hserial] at hjournal
    exact ⟨called, purpose, rest, hr₁, hr₂, hf, by rw [hjournal]; rfl⟩
  · have horderly := hb.orderly
    have horderly' : Orderly m.hub.journal := horderly
    rw [hj] at horderly'
    exact horderly'.ended rfl

/-- Work that a running hub was asked for has begun once. -/
private theorem accepted_once {work : SystemWork σ} (hm₁ : m₁.Reachable) (hm₂ : m₂.Reachable)
    (hands : Hands m₁ m₂ (Hub.wayOf work) (.system work.kind) (.work work))
    (running : m₁.hub.running = true) (hr : m₂.Reaches m) (hown : m.books.owned = []) :
    m.hub.journal.filter (fun i => i.closes? == some m₁.hub.postings) =
        [.worked m₁.hub.postings] ∧
      ∀ kind routine, work = .call kind routine →
        ∃ called below, m₂.Reaches called ∧ called.Reaches m ∧
          called.frames = .code (.loop (.callback m₁.hub.postings)) routine :: below := by
  have hb := (hm₂.reaches hr).balanced
  have hdue : ((Completion.work work).hasCallback || (Hub.wayOf work).isWork) = true := by
    cases work <;> rfl
  obtain ⟨hoffered, ⟨incident, hone⟩, called, posting, hr₁, hr₂, hserial, hcompletion, -,
    hbegun⟩ := hands.done hm₁ hm₂ (.inr running) hdue hr hown
  have hmem := (mem_closing hone incident).mp rfl
  have hkept : .discarded m₁.hub.postings ∉ m.hub.journal := by
    have hmoves := (hands.moves hm₁ (.inr running)).trans (Reaches.books hm₂ hr)
    refine Moves.discarded hmoves (Nat.lt_succ_self _) fun hd => ?_
    have hzero := (hm₁.balanced.bounded m₁.hub.postings (Nat.le_refl _)).2
    rcases List.mem_cons.mp hd with he | hd
    · cases he
    · have hpos : 0 < tally Incident.closes? m₁.hub.postings m₁.hub.journal :=
        List.count_pos_iff.mpr (List.mem_filterMap.mpr ⟨_, hd, rfl⟩)
      exact absurd hzero (Nat.ne_of_gt hpos)
  have hincident : incident = .worked m₁.hub.postings := by
    obtain ⟨hjournal, hcloses⟩ := hmem
    cases incident with
    | freed serial type payload =>
      cases hcloses
      obtain ⟨way, event, ho, -⟩ := hb.freed _ _ _ hjournal
      have hcb := (offered_unique (hb.offers_le _) hoffered ho).2.2
      cases hcb
    | worked serial =>
      cases hcloses
      rfl
    | discarded serial =>
      cases hcloses
      exact absurd hjournal hkept
    | _ => cases hcloses
  refine ⟨by rw [hone, hincident], fun kind routine hw => ?_⟩
  rw [hw] at hcompletion
  obtain ⟨below, hcalled⟩ := hbegun.2 kind routine hcompletion
  rw [hserial] at hcalled
  exact ⟨called, below, hr₁, hr₂, hcalled⟩

/-- Work that a hub was asked for after it had stopped was thrown away, and has not begun. -/
private theorem refused_once {serial : Nat} {way : Way} {event : Event} (hm₂ : m₂.Reachable)
    (hway : way.isWork = true) (hoffered : .offered serial way event false ∈ m₂.hub.journal)
    (hdiscarded : .discarded serial ∈ m₂.hub.journal) (hr : m₂.Reaches m)
    (hown : m.books.owned = []) :
    m.hub.journal.filter (fun i => i.closes? == some serial) = [.discarded serial] := by
  have hb := (hm₂.reaches hr).balanced
  obtain ⟨incident, hone⟩ := hb.done_once hown (Reaches.remembers hm₂ hr hoffered) (by simp [hway])
  have hincident := (mem_closing hone (.discarded serial)).mpr
    ⟨Reaches.remembers hm₂ hr hdiscarded, rfl⟩
  rw [← hincident] at hone
  exact hone

/-- Work that was asked for begins once if the request was accepted; if not, it is thrown away. -/
private theorem worked_once {r : Reach} {a : Answer} {actor : Actor σ r a} {work : SystemWork σ}
    {next : Bool → Routine σ r a} {rest : List (Frame σ)} (hm₁ : m₁.Reachable)
    (hf : m₁.frames = .code actor (.request work next) :: rest) (hs : m₁.step = .stepped m₂)
    (hr : m₂.Reaches m) (hown : m.books.owned = []) :
    ∃ accepted upper, m₂.frames = upper ++ .code actor (next accepted) :: rest ∧
      m.hub.journal.filter (fun i => i.closes? == some m₁.hub.postings) =
        [if accepted = true then .worked m₁.hub.postings else .discarded m₁.hub.postings] ∧
      ∀ kind routine, work = .call kind routine → accepted = true →
        ∃ called below, m₂.Reaches called ∧ called.Reaches m ∧
          called.frames = .code (.loop (.callback m₁.hub.postings)) routine :: below := by
  obtain ⟨⟨upper, hframes⟩, hands, hstopped⟩ := request_hands hf hs
  have hm₂ := hm₁.move (.step hs)
  refine ⟨m₁.hub.running, upper, hframes, ?_⟩
  cases hrunning : m₁.hub.running with
  | true =>
    obtain ⟨hone, hcalled⟩ := accepted_once hm₁ hm₂ hands hrunning hr hown
    exact ⟨hone, fun kind routine hw _ => hcalled kind routine hw⟩
  | false =>
    have hway : (Hub.wayOf work).isWork = true := by
      cases work <;> rfl
    have hjournal := hstopped hrunning
    have hone := refused_once hm₂ hway (hjournal ▸ List.mem_cons_of_mem _ (List.mem_cons_self ..))
      (hjournal ▸ List.mem_cons_self ..) hr hown
    exact ⟨hone, fun _ _ _ h => by cases h⟩

/-- When `run`, called outside of every callback, returns, no completion is lost or duplicated. The
callback of each event that was posted with one has begun once, with the event's own type and
payload, when all handling of the event had ended. Each request for work that was accepted has been
met once, and no other one. -/
theorem completions_once {start last : Machine σ} (hs : start.IsStart) (hr : start.Reaches last)
    (hret : last.Returns m) :
    (∀ {m₁ m₂ : Machine σ} {event : Event} {callback : FreeCallback σ}, start.Reaches m₁ →
      m₁.Posts event callback → m₁.step = .stepped m₂ → m₂.Reaches m →
        m.hub.journal.filter (fun i => i.closes? == some m₁.hub.postings) =
            [.freed m₁.hub.postings event.type event.payload] ∧
          (∃ called purpose rest, m₂.Reaches called ∧ called.Reaches m ∧
            called.frames = .code (.handle purpose) (callback event.type event.payload) :: rest ∧
            called.hub.journal.head? = some (.freed m₁.hub.postings event.type event.payload)) ∧
          ∀ later earlier, m.hub.journal =
              later ++ .freed m₁.hub.postings event.type event.payload :: earlier →
            tally Incident.enters? m₁.hub.postings later = 0 ∧
            tally Incident.leaves? m₁.hub.postings later = 0 ∧
            tally Incident.enters? m₁.hub.postings earlier =
              tally Incident.leaves? m₁.hub.postings earlier) ∧
    ∀ {m₁ m₂ : Machine σ} {r : Reach} {a : Answer} {actor : Actor σ r a} {work : SystemWork σ}
      {next : Bool → Routine σ r a} {rest : List (Frame σ)}, start.Reaches m₁ →
      m₁.frames = .code actor (.request work next) :: rest → m₁.step = .stepped m₂ →
      m₂.Reaches m →
        ∃ accepted upper, m₂.frames = upper ++ .code actor (next accepted) :: rest ∧
          m.hub.journal.filter (fun i => i.closes? == some m₁.hub.postings) =
            [if accepted = true then .worked m₁.hub.postings
              else .discarded m₁.hub.postings] ∧
          ∀ kind routine, work = .call kind routine → accepted = true →
            ∃ called below, m₂.Reaches called ∧ called.Reaches m ∧
              called.frames = .code (.loop (.callback m₁.hub.postings)) routine :: below := by
  have hown := Returns.owned ⟨start, hs, hr⟩ hret
  refine ⟨fun hr₁ hp hstep hr₂ => ?_, fun hr₁ hf hstep hr₂ => ?_⟩
  · exact freed_once ⟨start, hs, hr₁⟩ hp hstep hr₂ hown
  · exact worked_once ⟨start, hs, hr₁⟩ hf hstep hr₂ hown

def postAndRun : Routine Unit .loop .nothing :=
  .post (Event.new EventType.firstUser) (some fun _ _ => .done ()) <|
  .request (.call .deferred (.done ())) fun _ =>
  .request .shutdown fun _ =>
  .run (.done ())

theorem completions_once_postAndRun :
    ∃ m : Machine Unit, ((plain postAndRun).advance 50).1.Returns m ∧
      m.hub.journal.filter (fun i => i.closes? == some 0) =
        [.freed 0 EventType.firstUser none] ∧
      m.hub.journal.filter (fun i => i.closes? == some 1) = [.worked 1] := by
  have hstart := isStart_plain postAndRun
  have hrun : (plain postAndRun).Reaches ((plain postAndRun).advance 50).1 :=
    reaches_unfinished (by decide +kernel)
  have hret : ((plain postAndRun).advance 50).1.Returns ((plain postAndRun).advance 51).1 :=
    ⟨⟨.done (), rfl⟩, rfl⟩
  have hposted : ((plain postAndRun).advance 1).1.Reaches ((plain postAndRun).advance 51).1 :=
    reaches_later 1 50 (by decide +kernel)
  have hidle : (plain postAndRun).Reaches ((plain postAndRun).advance 3).1 :=
    reaches_unfinished (by decide +kernel)
  have hasked : ((plain postAndRun).advance 4).1.Reaches ((plain postAndRun).advance 51).1 :=
    reaches_later 4 47 (by decide +kernel)
  obtain ⟨hfreed, hworked⟩ := completions_once hstart hrun hret
  obtain ⟨once, -, -⟩ := hfreed .refl (.critical rfl) rfl hposted
  obtain ⟨accepted, -, -, hworked, -⟩ := hworked hidle rfl rfl hasked
  refine ⟨_, hret, once, ?_⟩
  cases accepted with
  | true => exact hworked
  | false =>
    have hcontra : ((plain postAndRun).advance 51).1.hub.journal.filter
        (fun i => i.closes? == some 1) ≠ [.discarded 1] := by decide +kernel
    exact absurd hworked hcontra

end Machine

end SensorHub
