import SensorHub.Proofs.Roster

namespace SensorHub

variable {σ : Type}

namespace Life

/-- What happened in the life of the app with this load, in the order in which it happened. -/
def of (deeds : List Incident) (load : Nat) : List Incident :=
  (deeds.filter fun i => i.owner? == some load).reverse

def visit (load : Nat) (info : Info) (event : Option Nat × Bool) : List Incident :=
  [.entered load info.instanceId (.event event.1) event.2, .left load (.event event.1)]

/-- The life of an app that was `started`, or that did not start, up to its last manager. -/
def told (load : Nat) (info : Info) (stopping started : Bool) (visits : List (Option Nat × Bool))
    (managers : List (Nat × Releaser σ)) : List Incident :=
  [.loaded load info, .entered load info.instanceId .start stopping, .left load .start] ++
    (if started then
      visits.flatMap (visit load info) ++
        [.entered load info.instanceId .finish true, .left load .finish]
    else []) ++
    managers.map fun manager => .released load manager.2.kind manager.1

def whole (collaborators : Collaborators σ) (load : Nat) (info : Info) (stopping started : Bool)
    (visits : List (Option Nat × Bool)) : List Incident :=
  told load info stopping started visits collaborators.inReleaseOrder ++
    [.erased load info.instanceId]

variable {deed : Incident} {deeds : List Incident} {load : Nat}

theorem of_cons_own (h : deed.owner? = some load) : of (deed :: deeds) load = of deeds load ++ [deed] := by
  rw [of, List.filter_cons_of_pos (by simp [h]), List.reverse_cons, of]

theorem of_cons_other (h : deed.owner? ≠ some load) : of (deed :: deeds) load = of deeds load := by
  rw [of, List.filter_cons_of_neg (by simpa using h), of]

end Life

/-- How far an app has come in its life. -/
inductive Task (σ : Type)
  /-- Its first entry point runs. -/
  | start
  /-- It has started, and none of its code runs. -/
  | stay
  | handle (serial : Option Nat) (stopping : Bool)
  /-- It did not start. -/
  | fail
  /-- Its last entry point runs. -/
  | finish
  /-- These managers have released what it held. -/
  | release (started : Bool) (managers : List (Nat × Releaser σ))

namespace Task

def answer? : Task σ → Option Bool
  | .start => none
  | .stay | .handle _ _ | .finish => some true
  | .fail => some false
  | .release started _ => some started

/-- The life of an app that has come so far. -/
def life (load : Nat) (info : Info) (stopping : Bool) (visits : List (Option Nat × Bool)) :
    Task σ → List Incident
  | .start => [.loaded load info, .entered load info.instanceId .start stopping]
  | .stay =>
    [.loaded load info, .entered load info.instanceId .start stopping, .left load .start] ++
      visits.flatMap (Life.visit load info)
  | .handle serial last =>
    [.loaded load info, .entered load info.instanceId .start stopping, .left load .start] ++
      visits.flatMap (Life.visit load info) ++
      [.entered load info.instanceId (.event serial) last]
  | .fail => [.loaded load info, .entered load info.instanceId .start stopping, .left load .start]
  | .finish =>
    [.loaded load info, .entered load info.instanceId .start stopping, .left load .start] ++
      visits.flatMap (Life.visit load info) ++ [.entered load info.instanceId .finish true]
  | .release started managers => Life.told load info stopping started visits managers

end Task

namespace Frame

/-- The frames do what the task of the app at a place asks for. Above them there are light frames
only, and below them none that belongs to an app. -/
inductive Busy (collaborators : Collaborators σ) (index load : Nat) (info : Info) :
    Task σ → List (Frame σ) → Prop
  | above {task frame rest} (light : frame.isLight = true)
      (busy : Busy collaborators index load info task rest) :
      Busy collaborators index load info task (frame :: rest)
  | start {stopping client routine rest} (idle : ∀ f ∈ rest, f.isBusy = false) :
      Busy collaborators index load info .start
        (.code (.start index stopping client) routine :: rest)
  | handle {serial stopping routine rest} (idle : ∀ f ∈ rest, f.isBusy = false) :
      Busy collaborators index load info (.handle serial stopping)
        (.code (.entry index stopping (.event serial)) routine :: rest)
  | mark {rest} (idle : ∀ f ∈ rest, f.isBusy = false) :
      Busy collaborators index load info .fail (.mark info false :: rest)
  | settle {previous rest} (idle : ∀ f ∈ rest, f.isBusy = false) :
      Busy collaborators index load info .fail (.settle info false previous :: rest)
  | remove {rest} (idle : ∀ f ∈ rest, f.isBusy = false) :
      Busy collaborators index load info .fail (.remove index false :: rest)
  | leave {rest} (idle : ∀ f ∈ rest, f.isBusy = false) :
      Busy collaborators index load info .stay (.remove index true :: rest)
  | finish {routine rest} (idle : ∀ f ∈ rest, f.isBusy = false) :
      Busy collaborators index load info .finish
        (.code (.entry index true .finish) routine ::
          .release load info collaborators.inReleaseOrder :: .erase index load info :: rest)
  | release {started managers left rest} (order : managers ++ left = collaborators.inReleaseOrder)
      (idle : ∀ f ∈ rest, f.isBusy = false) :
      Busy collaborators index load info (.release started managers)
        (.release load info left :: .erase index load info :: rest)
  | erase {started rest} (idle : ∀ f ∈ rest, f.isBusy = false) :
      Busy collaborators index load info (.release started collaborators.inReleaseOrder)
        (.erase index load info :: rest)

theorem Busy.lights {collaborators : Collaborators σ} {index load : Nat} {info : Info}
    {task : Task σ} {upper rest : List (Frame σ)} (light : ∀ f ∈ upper, f.isLight = true)
    (h : Busy collaborators index load info task rest) :
    Busy collaborators index load info task (upper ++ rest) := by
  induction upper with
  | nil => exact h
  | cons frame upper ih =>
    refine .above (light frame (List.mem_cons_self ..)) (ih fun f hf => ?_)
    exact light f (List.mem_cons_of_mem _ hf)

end Frame

namespace Records

variable {r r' : Records σ} {answered answered' : Nat → Bool → Prop} {load index : Nat}
  {info : Info}

def life (r : Records σ) (load : Nat) : List Incident :=
  Life.of r.deeds load

theorem life_note_own {deed : Incident} (h : deed.owner? = some load) :
    (r.note deed).life load = r.life load ++ [deed] :=
  Life.of_cons_own h

theorem life_note_other {deed : Incident} (h : deed.owner? ≠ some load) :
    (r.note deed).life load = r.life load :=
  Life.of_cons_other h

/-- The app with this load does nothing: it is not loaded yet, it is loaded, or it has left. By
`answered` it is known how first entry points ended. -/
inductive AtRest (answered : Nat → Bool → Prop) (r : Records σ) (load : Nat) : Prop
  | unborn (absent : ∀ other, (load, other) ∉ r.roster) (life : r.life load = [])
  | staying {info stopping visits} (mem : (load, info) ∈ r.roster)
      (answer : answered load true)
      (life : r.life load = Task.life load info stopping visits (.stay : Task σ))
  | gone {info stopping started visits} (left : ∀ other, (load, other) ∉ r.roster)
      (old : load ≤ r.loads) (answer : answered load started)
      (life : r.life load = Life.whole r.collaborators load info stopping started visits)

namespace AtRest

theorem apart (h : AtRest answered r load)
    (mono : ∀ ok, answered load ok → answered' load ok) (life : r'.life load = r.life load)
    (roster : ∀ other, (load, other) ∈ r'.roster ↔ (load, other) ∈ r.roster)
    (loads : r.loads ≤ r'.loads) (collaborators : r'.collaborators = r.collaborators) :
    AtRest answered' r' load := by
  cases h with
  | unborn absent hlife =>
    exact .unborn (fun other hm => absent other ((roster other).mp hm)) (life.trans hlife)
  | staying mem answer hlife =>
    exact .staying ((roster _).mpr mem) (mono _ answer) (life.trans hlife)
  | gone left old answer hlife =>
    rw [← collaborators] at hlife
    exact .gone (fun other hm => left other ((roster other).mp hm)) (Nat.le_trans old loads)
      (mono _ answer) (life.trans hlife)

theorem mono (h : AtRest answered r load) (mono : ∀ ok, answered load ok → answered' load ok) :
    AtRest answered' r load :=
  h.apart mono rfl (fun _ => Iff.rfl) (Nat.le_refl _) rfl

theorem note (h : AtRest answered r load) (mono : ∀ ok, answered load ok → answered' load ok)
    {deed : Incident} (other : deed.owner? ≠ some load) : AtRest answered' (r.note deed) load :=
  h.apart mono (life_note_other other) (fun _ => Iff.rfl) (Nat.le_refl _) rfl

theorem join (h : AtRest answered r load) (mono : ∀ ok, answered load ok → answered' load ok)
    (other : load ≠ r.loads + 1) : AtRest answered' (r.join info) load := by
  refine h.apart mono (Life.of_cons_other ?_) (fun entry => ?_) (Nat.le_succ _) rfl
  · intro he
    exact other (Option.some.inj he).symm
  · show (load, entry) ∈ r.roster ++ [(r.loads + 1, info)] ↔ _
    simp [other]

theorem erase {gone : Nat} (h : AtRest answered r load)
    (mono : ∀ ok, answered load ok → answered' load ok)
    (placed : r.roster[index]? = some (gone, info)) (other : load ≠ gone) :
    AtRest answered' (r.erase index gone info.instanceId) load := by
  refine h.apart mono (Life.of_cons_other ?_) (fun entry => ?_) (Nat.le_refl _) rfl
  · intro he
    exact other (Option.some.inj he).symm
  · show (load, entry) ∈ r.roster.eraseIdx index ↔ _
    rw [List.mem_eraseIdx_iff_getElem?, List.mem_iff_getElem?]
    constructor
    · rintro ⟨i, -, hi⟩
      exact ⟨i, hi⟩
    · rintro ⟨i, hi⟩
      refine ⟨i, ?_, hi⟩
      rintro rfl
      rw [placed] at hi
      cases hi
      exact other rfl

/-- Of a loaded app that does nothing the life is known. -/
theorem of_mem (h : AtRest answered r load) (enrolled : r.Enrolled)
    (mem : (load, info) ∈ r.roster) :
    answered load true ∧ ∃ stopping visits,
      r.life load = Task.life load info stopping visits (.stay : Task σ) := by
  cases h with
  | unborn absent => exact absurd mem (absent info)
  | staying mem' answer hlife =>
    cases enrolled.load_unique mem mem'
    exact ⟨answer, _, _, hlife⟩
  | gone left => exact absurd mem (left info)

end AtRest

theorem life_next (h : AtRest answered r (r.loads + 1)) (enrolled : r.Enrolled) :
    r.life (r.loads + 1) = [] := by
  cases h with
  | unborn _ life => exact life
  | staying mem =>
    have hle := enrolled.numbered _ mem
    omega
  | gone _ old => omega

/-- Every app is tended: at most one is busy, and each has lived as far as its task says. -/
inductive Tended (answered : Nat → Bool → Prop) (r : Records σ) : List (Frame σ) → Prop
  | idle {frames} (enrolled : r.Enrolled) (idle : ∀ f ∈ frames, f.isBusy = false)
      (rest : ∀ load, AtRest answered r load) : Tended answered r frames
  | busy {frames index load info task stopping visits} (enrolled : r.Enrolled)
      (placed : r.roster[index]? = some (load, info))
      (busy : Frame.Busy r.collaborators index load info task frames)
      (answer : ∀ ok, task.answer? = some ok → answered load ok)
      (life : r.life load = task.life load info stopping visits)
      (rest : ∀ other, other ≠ load → AtRest answered r other) : Tended answered r frames

namespace Tended

open SensorHub.Frame

variable {frame : Frame σ} {frames rest : List (Frame σ)}

theorem enrolled (h : Tended answered r frames) : r.Enrolled := by
  cases h with
  | idle enrolled | busy enrolled => exact enrolled

theorem idle_append (idle : ∀ f ∈ frames, f.isBusy = false)
    (below : ∀ f ∈ rest, f.isBusy = false) : ∀ f ∈ frames ++ rest, f.isBusy = false := by
  intro f hf
  rcases List.mem_append.mp hf with hf | hf
  · exact idle f hf
  · exact below f hf

/-- While no app is busy, a step begins the life of a new app, or takes up that of a loaded one. -/
private theorem step_idle (enrolled : r.Enrolled) (apart : frame.isBusy = false)
    (below : ∀ f ∈ rest, f.isBusy = false) (atRest : ∀ load, AtRest answered r load)
    (mono : ∀ load ok, answered load ok → answered' load ok) (t : frame.Turnover r r' frames) :
    Tended answered' r' (frames ++ rest) := by
  cases t with
  | apart _ idle =>
    exact .idle enrolled (idle_append idle below) fun load => (atRest load).mono (mono load)
  | @join _ client stopping routine info _ supported named fresh unknown =>
    have hplaced : (r.join info).roster[r.roster.length]? = some (r.loads + 1, info) := by
      simp [Records.join]
    have hlife : ((r.join info).note
        (.entered (r.loads + 1) info.instanceId .start stopping)).life (r.loads + 1) =
          Task.life (r.loads + 1) info stopping [] (.start : Task σ) := by
      have hjoined : (r.join info).life (r.loads + 1) = [.loaded (r.loads + 1) info] := by
        refine (Life.of_cons_own rfl).trans ?_
        rw [← life, life_next (atRest _) enrolled]
        rfl
      rw [life_note_own rfl, hjoined]
      rfl
    refine .busy ((enrolled.join supported named fresh unknown).note _) hplaced (.start below)
      (by simp [Task.answer?]) hlife fun other hne => ?_
    refine ((atRest other).join (mono other) hne).note (fun _ h => h) ?_
    exact fun he => hne (Option.some.inj he).symm
  | @enter _ index load serial stopping routine lower info _ placed idle =>
    obtain ⟨answer, _, visits, hlife⟩ :=
      (atRest load).of_mem enrolled (List.mem_of_getElem? placed)
    refine .busy (enrolled.note _) placed (.handle (idle_append idle below))
      (fun ok hok => ?_) ((life_note_own rfl).trans (congrArg (· ++ [_]) hlife)) fun other hne => ?_
    · cases hok
      exact mono load true answer
    · exact (atRest other).note (mono other) fun he => hne (Option.some.inj he).symm
  | @depart _ index upper lower _ placed light idle =>
    obtain ⟨⟨load, info⟩, hplaced⟩ : ∃ entry, r.roster[index]? = some entry :=
      ⟨_, List.getElem?_eq_getElem placed⟩
    obtain ⟨answer, _, visits, hlife⟩ :=
      (atRest load).of_mem enrolled (List.mem_of_getElem? hplaced)
    rw [List.append_assoc]
    refine .busy enrolled hplaced (Busy.lights light (.leave (idle_append idle below)))
      (fun ok hok => ?_) hlife fun other _ => (atRest other).mono (mono other)
    cases hok
    exact mono load true answer
  | @work a actor =>
    cases actor with
    | start | entry => cases apart
  | _ => cases apart

private theorem step_busy {task : Task σ} {stopping : Bool} {visits : List (Option Nat × Bool)}
    (enrolled : r.Enrolled) (placed : r.roster[index]? = some (load, info))
    (busy : Busy r.collaborators index load info task (frame :: rest))
    (answer : ∀ ok, task.answer? = some ok → answered load ok)
    (hlife : r.life load = task.life load info stopping visits)
    (others : ∀ other, other ≠ load → AtRest answered r other)
    (light : frame.isLight = true → r' = r ∧ ∀ f ∈ frames, f.isLight = true)
    (mono : ∀ load ok, answered load ok → answered' load ok)
    (ended : ∀ index stopping client ok load info,
      frame = .code (.start index stopping client) (.done ok) →
        r.roster[index]? = some (load, info) → answered' load ok)
    (t : frame.Turnover r r' frames) : Tended answered' r' (frames ++ rest) := by
  have answer' : ∀ ok, task.answer? = some ok → answered' load ok :=
    fun ok hok => mono load ok (answer ok hok)
  have others' : ∀ other, other ≠ load → AtRest answered' r other :=
    fun other hne => (others other hne).mono (mono other)
  have noted : ∀ deed : Incident, deed.owner? = some load → ∀ other, other ≠ load →
      AtRest answered' (r.note deed) other := by
    intro deed hdeed other hne
    refine (others other hne).note (mono other) ?_
    rw [hdeed]
    exact fun he => hne (Option.some.inj he).symm
  cases busy with
  | above hframe busy =>
    obtain ⟨rfl, lights⟩ := light hframe
    exact .busy enrolled placed (busy.lights lights) answer' hlife others'
  | start idle =>
    cases t with
    | work lights =>
      rw [List.append_assoc]
      exact .busy enrolled placed (Busy.lights lights (.start idle)) answer' hlife others'
    | started hplaced lights below =>
      cases placed.symm.trans hplaced
      rw [List.append_assoc]
      have hupper := fun f hf => isBusy_of_isLight (lights f hf)
      refine .idle (enrolled.note _) (idle_append hupper (idle_append below idle)) fun other => ?_
      by_cases hother : other = load
      · subst hother
        have hstays : (r.note (.left other .start)).life other =
            Task.life other info stopping [] (.stay : Task σ) := by
          rw [life_note_own rfl, hlife]
          rfl
        exact .staying (List.mem_of_getElem? placed) (ended _ _ _ _ _ _ rfl placed) hstays
      · exact noted _ rfl other hother
    | failed hplaced loaded named below =>
      cases placed.symm.trans hplaced
      obtain rfl := (enrolled.info_unique
        (List.mem_map_of_mem (List.mem_of_getElem? placed)) loaded named).symm
      have hfails : (r.note (.left load .start)).life load =
          Task.life load info stopping visits (.fail : Task σ) := by
        rw [life_note_own rfl, hlife]
        rfl
      refine .busy (enrolled.note _) placed
        (.above rfl (.mark (idle_append below idle))) (fun ok hok => ?_) hfails (noted _ rfl)
      cases hok
      exact ended _ _ _ _ _ _ rfl placed
    | apart apart | join apart | enter apart | depart apart => cases apart
  | @handle serial last _ _ idle =>
    cases t with
    | work lights =>
      rw [List.append_assoc]
      exact .busy enrolled placed (Busy.lights lights (.handle idle)) answer' hlife others'
    | left hplaced =>
      cases placed.symm.trans hplaced
      refine .idle (enrolled.note _) idle fun other => ?_
      by_cases hother : other = load
      · subst hother
        have hstays : (r.note (.left other (.event serial))).life other =
            Task.life other info stopping (visits ++ [(serial, last)]) (.stay : Task σ) := by
          rw [life_note_own rfl, hlife]
          simp [Task.life, Life.visit]
        exact .staying (List.mem_of_getElem? placed) (answer' true rfl) hstays
      · exact noted _ rfl other hother
    | apart apart | join apart | enter apart | depart apart => cases apart
  | mark idle =>
    cases t with
    | mark => exact .busy enrolled placed (.settle idle) answer' hlife others'
    | apart apart | join apart | enter apart | depart apart => cases apart
  | settle idle =>
    cases t with
    | gone absent =>
      exact absurd (List.mem_map_of_mem (List.mem_map_of_mem (List.mem_of_getElem? placed))) absent
    | settle hplaced named =>
      obtain rfl := enrolled.index_unique placed hplaced named
      refine .busy enrolled placed (.remove (idle_append ?_ idle)) answer' hlife others'
      simp [isBusy]
    | apart apart | join apart | enter apart | depart apart => cases apart
  | remove idle =>
    cases t with
    | missing absent =>
      rw [placed] at absent
      cases absent
    | remove hplaced =>
      cases placed.symm.trans hplaced
      have hbusy : Busy r.collaborators index load info (.release false [])
          (.release load info r.collaborators.inReleaseOrder :: .erase index load info :: rest) :=
        .release (List.nil_append _) idle
      have htold : r.life load = Task.life load info stopping visits (.release false [] : Task σ) :=
        hlife
      exact .busy enrolled placed hbusy answer' htold others'
    | apart apart | join apart | enter apart | depart apart => cases apart
  | leave idle =>
    cases t with
    | missing absent =>
      rw [placed] at absent
      cases absent
    | finish hplaced =>
      cases placed.symm.trans hplaced
      exact .busy (enrolled.note _) placed (.finish idle) answer'
        ((life_note_own rfl).trans (congrArg (· ++ [_]) hlife)) (noted _ rfl)
    | apart apart | join apart | enter apart | depart apart => cases apart
  | finish idle =>
    cases t with
    | work lights =>
      rw [List.append_assoc]
      exact .busy enrolled placed (Busy.lights lights (.finish idle)) answer' hlife others'
    | left hplaced =>
      cases placed.symm.trans hplaced
      have hbusy : Busy r.collaborators index load info (.release true [])
          (.release load info r.collaborators.inReleaseOrder :: .erase index load info :: _) :=
        .release (List.nil_append _) idle
      have htold : (r.note (.left load .finish)).life load =
          Task.life load info stopping visits (.release true [] : Task σ) := by
        rw [life_note_own rfl, hlife]
        simp [Task.life, Life.told]
      exact .busy (enrolled.note _) placed hbusy answer' htold (noted _ rfl)
    | apart apart | join apart | enter apart | depart apart => cases apart
  | @release started managers _ _ order idle =>
    cases t with
    | released =>
      rw [List.append_nil] at order
      subst order
      exact .busy enrolled placed (.erase idle) answer' hlife others'
    | @release _ _ place manager left _ =>
      have hbusy : Busy r.collaborators index load info
          (.release started (managers ++ [(place, manager)]))
          (.release load info left :: .erase index load info :: _) :=
        .release (by rw [List.append_assoc]; exact order) idle
      have htold : (r.note (.released load manager.kind place)).life load =
          Task.life load info stopping visits (.release started (managers ++ [(place, manager)])) := by
        rw [life_note_own rfl, hlife]
        simp [Task.life, Life.told]
      exact .busy (enrolled.note _) placed (.above rfl hbusy) answer' htold (noted _ rfl)
    | apart apart | join apart | enter apart | depart apart => cases apart
  | erase idle =>
    cases t with
    | erase =>
      refine .idle (enrolled.erase placed) idle fun other => ?_
      by_cases hother : other = load
      · subst hother
        exact .gone (enrolled.not_mem_eraseIdx placed)
          (enrolled.numbered _ (List.mem_of_getElem? placed)) (answer' _ rfl)
          ((Life.of_cons_own rfl).trans (congrArg (· ++ [_]) hlife))
      · exact (others other hother).erase (mono other) placed hother
    | apart apart | join apart | enter apart | depart apart => cases apart

theorem step (h : Tended answered r (frame :: rest))
    (light : frame.isLight = true → r' = r ∧ ∀ f ∈ frames, f.isLight = true)
    (mono : ∀ load ok, answered load ok → answered' load ok)
    (ended : ∀ index stopping client ok load info,
      frame = .code (.start index stopping client) (.done ok) →
        r.roster[index]? = some (load, info) → answered' load ok)
    (t : frame.Turnover r r' frames) : Tended answered' r' (frames ++ rest) := by
  cases h with
  | idle enrolled idle atRest =>
    have apart := idle frame (List.mem_cons_self ..)
    exact step_idle enrolled apart (fun f hf => idle f (List.mem_cons_of_mem _ hf)) atRest mono t
  | busy enrolled placed busy answer hlife others =>
    exact step_busy enrolled placed busy answer hlife others light mono ended t

theorem above (h : Tended answered r frames) (light : frame.isLight = true) :
    Tended answered r (frame :: frames) := by
  cases h with
  | idle enrolled idle atRest =>
    refine .idle enrolled (fun f hf => ?_) atRest
    rcases List.mem_cons.mp hf with rfl | hf
    · exact isBusy_of_isLight light
    · exact idle f hf
  | busy enrolled placed busy answer hlife others =>
    exact .busy enrolled placed (.above light busy) answer hlife others

theorem mono (h : Tended answered r frames)
    (mono : ∀ load ok, answered load ok → answered' load ok) : Tended answered' r frames := by
  cases h with
  | idle enrolled idle atRest =>
    exact .idle enrolled idle fun load => (atRest load).mono (mono load)
  | busy enrolled placed busy answer hlife others =>
    refine .busy enrolled placed busy (fun ok hok => ?_) hlife fun other hne => ?_
    · exact mono _ ok (answer ok hok)
    · exact (others other hne).mono (mono other)

/-- While the first entry point of an app runs, nothing else has happened in its life, and it is
open how it will end. -/
theorem starting {stopping : Bool} {client : LoadClient σ} {routine : Routine σ .app .flag}
    (h : Tended answered r (.code (.start index stopping client) routine :: rest))
    (placed : r.roster[index]? = some (load, info))
    (apart : ∀ other ok, other ≠ load → answered other ok → answered' other ok) :
    Tended answered' r (.code (.start index stopping client) routine :: rest) ∧
      ∃ stopping, r.life load =
        [.loaded load info, .entered load info.instanceId .start stopping] := by
  cases h with
  | idle _ idle => cases idle _ (List.mem_cons_self ..)
  | busy enrolled placed' busy _ hlife others =>
    cases busy with
    | above light => cases light
    | start idle =>
      cases placed.symm.trans placed'
      refine ⟨.busy enrolled placed (.start idle) (by simp [Task.answer?]) hlife ?_, _, hlife⟩
      intro other hne
      exact (others other hne).mono fun ok => apart other ok hne

end Tended

end Records

namespace Machine

open Records

variable {m next start : Machine σ} {answered answered' : Nat → Bool → Prop}

theorem Move.tended (hm : m.Reachable) (hmove : Move m next)
    (mono : ∀ load ok, answered load ok → answered' load ok)
    (ended : ∀ index stopping client ok rest load info, m.step = .stepped next →
      m.frames = .code (.start index stopping client) (.done ok) :: rest →
        m.hub.records.roster[index]? = some (load, info) → answered' load ok)
    (h : Tended answered m.hub.records m.frames) :
    Tended answered' next.hub.records next.frames := by
  cases hmove with
  | step hs =>
    obtain ⟨hub, frame, rest, hub', frames, rfl, hgo, rfl⟩ := step_eq_stepped.mp hs
    obtain ⟨turnover, -⟩ := Frame.step_turnover hm.nested.1 hgo
    refine h.step (fun light => ?_) mono (fun index stopping client ok load info he hp => ?_)
      turnover
    · obtain ⟨side, lights⟩ := Frame.step_light light hgo
      exact ⟨Hub.records_of_loopSide side, lights⟩
    · exact ended index stopping client ok rest load info hs (congrArg (· :: rest) he) hp
  | interrupt routine =>
    have light : (Frame.code (.handle .foreign) routine).isLight = true := rfl
    exact (h.mono mono).above light

end Machine

end SensorHub
