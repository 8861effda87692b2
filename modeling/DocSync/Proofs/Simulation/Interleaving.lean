import DocSync.Proofs.Job.Reading
import DocSync.Proofs.Simulation.Apart

/-!
Jobs at the same time.  The calls of jobs that have neither index nor slot nor buffer in common are answered in
any order, and others commit in between.  Main statement: a cycle leaves what is another job's as it is, and its
session as deep as it was; and an index comes to hold the documents that it would hold without the other jobs.
-/

namespace DocSync

open Own (IsJob)

/-- Cycles one after another, whatever each comes to. -/
def Job.series : List (CycleKind × Nat) → Job → Routine Job
  | [], job => .done job
  | (kind, pages) :: rest, job => ((kind.cycle pages).run.run job).bind fun (_, job) => series rest job

/-- A job at work: what it is connected to, the open scopes of its session, and what it has still to ask. -/
structure Party where
  wiring : Wiring
  frames : Frames
  rest : Routine Job

/-- A job makes its next call, or has nothing more to ask. -/
def Party.turn (party : Party) (w : World) : Party × World :=
  match party.rest with
  | .ask call next =>
    let (a, w, frames) := World.answer party.wiring call (w, party.frames)
    (⟨party.wiring, frames, next a⟩, w)
  | .done _ => (party, w)
  | .spent => (party, w)

/-- Jobs at work in one world. -/
structure Company (ι : Type) where
  world : World
  party : ι → Party

/-- What happens next: others come to a commit, or a call of a job is answered. -/
inductive Move (ι : Type) where
  | commits (queries : List Query)
  | call (i : ι)

/-- Whether something happens that is not another job's. -/
def Move.concerns {ι : Type} [DecidableEq ι] (i : ι) : Move ι → Bool
  | commits _ => true
  | call j => i = j

namespace Company

variable {ι : Type} [DecidableEq ι]

/-- Jobs that are to make some cycles each. -/
def start (w : World) (jobs : ι → SimulatedJob) (cycles : ι → List (CycleKind × Nat)) : Company ι :=
  ⟨w, fun i => ⟨(jobs i).wiring, (jobs i).frames, Job.series (cycles i) (jobs i).job⟩⟩

def takes (c : Company ι) : Move ι → Company ι
  | .commits queries => { c with world := c.world.tries queries }
  | .call i => ⟨((c.party i).turn c.world).2, Function.update c.party i ((c.party i).turn c.world).1⟩

/-- One thing happens after another. -/
def plays (c : Company ι) (moves : List (Move ι)) : Company ι := moves.foldl takes c

/-- What a job has written to its index. -/
def documents (c : Company ι) (jobs : ι → SimulatedJob) (i : ι) : Keyed Document :=
  (c.world.sink (jobs i).wiring.sink).stored (jobs i).job.options.index

end Company

namespace World

variable {opts opts' : SyncOptions} {wiring wiring' : Wiring} {w w' : World} {α : Type}

/-! ### A job alone -/

theorem Apart.of_places (h : Apart w opts wiring opts' wiring')
    (hplaces : ∀ name, (w'.buffer name).store.place = (w.buffer name).store.place) :
    Apart w' opts wiring opts' wiring' := by
  refine ⟨h.sink, h.store, h.index, h.slot, h.buffer, fun place hplace => ?_⟩
  rw [hplaces] at hplace ⊢
  exact h.place place hplace

/-- A program that makes a job's own calls leaves the world the same for every job apart from it, and ends
with the scopes open that it should. -/
theorem run_apart {ends : α → Option Nat → Prop} {p : Routine α} {depth : Nat}
    (hp : p.Follows (Own.rules opts) ends (some depth)) (hapart : Apart w opts wiring opts' wiring')
    (hwrites : (w.buffer wiring.buffer).writes = []) (base : Frames) :
    SameFor opts' wiring' w (runRoutine wiring p (w, above base depth)).2.1 ∧
      ∀ value, (runRoutine wiring p (w, above base depth)).1 = some value →
        ∃ depth', ends value (some depth') ∧
          (runRoutine wiring p (w, above base depth)).2.2 = above base depth' := by
  induction p generalizing w depth with
  | done value => exact ⟨.refl _ _ w, fun _ hvalue => ⟨depth, Option.some.inj hvalue ▸ hp, rfl⟩⟩
  | spent => exact ⟨.refl _ _ w, nofun⟩
  | ask call next ih =>
    have hown := Own.allows_some.mp hp.1
    obtain ⟨depth', hnext, hframes⟩ := answer_depth wiring hown w base
    have hsame := answer_apart hown hapart hwrites base
    have hstep : (next (answer wiring call (w, above base depth)).1).Follows (Own.rules opts) ends
        (some depth') := by
      rw [← hnext]
      exact hp.2 _
    have hsite : (answer wiring call (w, above base depth)).2 =
        ((answer wiring call (w, above base depth)).2.1, above base depth') := by rw [← hframes]
    obtain ⟨hrest, hends⟩ := ih _ hstep (hapart.of_places hsame.buffer.places) (answer_writes hown hwrites base)
    rw [← hsite] at hrest hends
    exact ⟨hsame.trans hrest, hends⟩

/-- What a cycle makes of a site leaves what is not the job's own, and closes what it opens. -/
theorem cycle_apart {job : Job} (hjob : IsJob opts job) (hapart : Apart w opts wiring opts' wiring')
    (hwrites : (w.buffer wiring.buffer).writes = []) (kind : CycleKind) (pages : Nat) (frames : Frames) :
    SameFor opts' wiring' w (runRoutine wiring ((kind.cycle pages).run.run job) (w, frames)).2.1 ∧
      ∀ result, (runRoutine wiring ((kind.cycle pages).run.run job) (w, frames)).1 = some result →
        (runRoutine wiring ((kind.cycle pages).run.run job) (w, frames)).2.2 = frames := by
  have hkeeps := Own.keeps_parts.cycle kind pages 0 job hjob
  have hbase : above frames 0 = frames := List.append_nil frames
  obtain ⟨hsame, hends⟩ := run_apart hkeeps hapart hwrites frames
  rw [hbase] at hsame hends
  refine ⟨hsame, fun result hresult => ?_⟩
  obtain ⟨depth, hlevel, hframes⟩ := hends result hresult
  rcases hlevel with hlost | ⟨hdepth, -⟩
  · contradiction
  · obtain rfl := Option.some.inj hdepth
    exact hframes.trans hbase

end World

/-! ### Jobs at the same time -/

namespace Own

variable {opts : SyncOptions}

theorem series_follows (cycles : List (CycleKind × Nat)) {depth : Nat} {job : Job} (hjob : IsJob opts job) :
    (Job.series cycles job).Follows (rules opts) (fun _ _ => True) (some depth) := by
  induction cycles generalizing job with
  | nil => trivial
  | cons cycle rest ih =>
    obtain ⟨kind, pages⟩ := cycle
    refine Program.Follows.bind (Program.Follows.mono (fun r stage hr => ?_)
      (keeps_parts.cycle kind pages depth job hjob))
    rcases hr with rfl | ⟨rfl, hjob', -⟩
    · exact follows_lost (fun _ => trivial) _
    · exact ih hjob'

end Own

namespace Party

open World (Apart Calm SameFor above)

variable {opts opts' : SyncOptions} {base : Frames} {party : Party} {w w' : World} {wiring' : Wiring}

/-- A job makes its own calls, above the scopes that were open before. -/
def Works (opts : SyncOptions) (base : Frames) (party : Party) : Prop :=
  ∃ depth, party.frames = above base depth ∧
    party.rest.Follows (Own.rules opts) (fun _ _ => True) (some depth)

/-- A job makes one of its own calls, or has nothing more to ask. -/
theorem Works.turn_cases (h : party.Works opts base) :
    (∀ w, party.turn w = (party, w)) ∨
      ∃ (depth : Nat) (call : Call) (next : call.Answer → Routine Job), call.IsOwn opts depth ∧
        (∀ w, party.turn w =
          (⟨party.wiring, (World.answer party.wiring call (w, above base depth)).2.2,
            next (World.answer party.wiring call (w, above base depth)).1⟩,
          (World.answer party.wiring call (w, above base depth)).2.1)) ∧
        ∀ w, (party.turn w).1.Works opts base := by
  obtain ⟨depth, hframes, hfollows⟩ := h
  cases hrest : party.rest with
  | done => exact .inl fun w => by simp only [turn, hrest]
  | spent => exact .inl fun w => by simp only [turn, hrest]
  | ask call next =>
    rw [hrest] at hfollows
    have hown := Own.allows_some.mp hfollows.1
    refine .inr ⟨depth, call, next, hown, fun w => by simp only [turn, hrest, hframes], fun w => ?_⟩
    obtain ⟨depth', hnext, hafter⟩ := World.answer_depth party.wiring hown w base
    simp only [turn, hrest, hframes]
    refine ⟨depth', hafter, ?_⟩
    rw [← hnext]
    exact hfollows.2 _

@[simp] theorem turn_wiring (party : Party) (w : World) : (party.turn w).1.wiring = party.wiring := by
  unfold turn
  split <;> rfl

theorem Works.turn (h : party.Works opts base) (w : World) : (party.turn w).1.Works opts base := by
  rcases h.turn_cases with hidle | ⟨_, _, _, _, _, hworks⟩
  · rw [hidle]
    exact h
  · exact hworks w

theorem Works.turn_calm (h : party.Works opts base) (hcalm : Calm party.wiring w) :
    Calm party.wiring (party.turn w).2 := by
  rcases h.turn_cases with hidle | ⟨depth, call, next, hown, hturn, -⟩
  · rw [hidle]
    exact hcalm
  · rw [hturn]
    exact World.answer_calm hown hcalm base

/-- What a job does leaves the world the same for every job apart from it. -/
theorem Works.turn_apart (h : party.Works opts base) (hapart : Apart w opts party.wiring opts' wiring')
    (hcalm : Calm party.wiring w) : SameFor opts' wiring' w (party.turn w).2 := by
  rcases h.turn_cases with hidle | ⟨depth, call, next, hown, hturn, -⟩
  · rw [hidle]
    exact .refl _ _ w
  · rw [hturn]
    exact World.answer_apart hown hapart hcalm.writes base

/-- A job does the same in worlds that are the same for it, and leaves them the same. -/
theorem Works.turn_same (h : party.Works opts base) (hsame : SameFor opts party.wiring w w')
    (hcalm : Calm party.wiring w) (hcalm' : Calm party.wiring w') :
    (party.turn w').1 = (party.turn w).1 ∧
      SameFor opts party.wiring (party.turn w).2 (party.turn w').2 := by
  rcases h.turn_cases with hidle | ⟨depth, call, next, hown, hturn, -⟩
  · rw [hidle, hidle]
    exact ⟨rfl, hsame⟩
  · obtain ⟨hanswer, hworld⟩ := hsame.answer hcalm hcalm' hown base
    obtain ⟨depth₁, hnext, hframes⟩ := World.answer_depth party.wiring hown w base
    obtain ⟨depth₂, hnext', hframes'⟩ := World.answer_depth party.wiring hown w' base
    -- How many scopes are open follows from the answer, which is the same.
    obtain rfl : depth₁ = depth₂ := by
      rw [hanswer, hnext] at hnext'
      exact Option.some.inj hnext'
    rw [hturn, hturn, hanswer, hframes, hframes']
    exact ⟨rfl, hworld⟩

end Party

namespace Company

open World (Apart Calm SameFor)

variable {ι : Type} [DecidableEq ι] {opts : ι → SyncOptions} {base : ι → Frames} {c c' : Company ι} {i j : ι}

/-- Jobs that are apart, and make their own calls in a calm world. -/
structure Orderly (opts : ι → SyncOptions) (base : ι → Frames) (c : Company ι) : Prop where
  calm : ∀ i, Calm (c.party i).wiring c.world
  apart : ∀ i j, i ≠ j → Apart c.world (opts i) (c.party i).wiring (opts j) (c.party j).wiring
  works : ∀ i, (c.party i).Works (opts i) (base i)

/-- Companies that are the same for one of the jobs. -/
structure SameTo (opts : ι → SyncOptions) (i : ι) (c c' : Company ι) : Prop where
  party : c'.party i = c.party i
  world : SameFor (opts i) (c.party i).wiring c.world c'.world

@[simp] theorem takes_wiring (c : Company ι) (move : Move ι) (i : ι) :
    ((c.takes move).party i).wiring = (c.party i).wiring := by
  cases move with
  | commits => rfl
  | call j =>
    by_cases hij : i = j
    · subst hij
      simp [takes]
    · simp [takes, hij]

/-- What one job does leaves the world the same for the others. -/
theorem Orderly.sameFor (h : Orderly opts base c) (hne : i ≠ j) :
    SameFor (opts i) (c.party i).wiring c.world (c.takes (.call j)).world :=
  (h.works j).turn_apart (h.apart j i hne.symm) (h.calm j)

theorem Orderly.takes (h : Orderly opts base c) (move : Move ι) : Orderly opts base (c.takes move) := by
  cases move with
  | commits queries =>
    refine ⟨fun i => (h.calm i).tries queries, fun i j hne => ?_, h.works⟩
    exact (h.apart i j hne).of_places fun name => World.place_tries c.world name queries
  | call j =>
    refine ⟨fun i => ?_, fun i k hne => ?_, fun i => ?_⟩
    · rw [takes_wiring]
      by_cases hij : i = j
      · subst hij
        exact (h.works i).turn_calm (h.calm i)
      · have hsink := (h.apart j i (Ne.symm hij)).sink
        exact (h.calm i).apart ((h.works j).turn_calm (h.calm j)) hsink (h.sameFor hij)
    · rw [takes_wiring, takes_wiring]
      refine (h.apart i k hne).of_places ?_
      -- At least one of the two did not make the call, and sees every buffer in its place.
      by_cases hij : i = j
      · exact (h.sameFor (hij ▸ hne.symm)).buffer.places
      · exact (h.sameFor hij).buffer.places
    · by_cases hij : i = j
      · subst hij
        simpa [Company.takes] using (h.works i).turn c.world
      · simpa [Company.takes, hij] using h.works i

/-- A job and those who commit do the same in companies that are the same for the job. -/
theorem SameTo.takes (hsame : SameTo opts i c c') (h : Orderly opts base c) (h' : Orderly opts base c')
    {move : Move ι} (hmove : move.concerns i = true) : SameTo opts i (c.takes move) (c'.takes move) := by
  cases move with
  | commits queries => exact ⟨hsame.party, hsame.world.tries queries⟩
  | call j =>
    obtain rfl : i = j := by simpa [Move.concerns] using hmove
    have hcalm' : Calm (c.party i).wiring c'.world := hsame.party ▸ h'.calm i
    obtain ⟨hparty, hworld⟩ := (h.works i).turn_same hsame.world (h.calm i) hcalm'
    refine ⟨?_, ?_⟩
    · simpa [Company.takes, hsame.party] using hparty
    · rw [takes_wiring]
      simpa [Company.takes, hsame.party] using hworld

/-- What another job does, the job cannot tell. -/
theorem SameTo.ignores (hsame : SameTo opts i c c') (h : Orderly opts base c) (hne : i ≠ j) :
    SameTo opts i (c.takes (.call j)) c' := by
  refine ⟨?_, ?_⟩
  · simpa [Company.takes, hne] using hsame.party
  · rw [takes_wiring]
    exact (h.sameFor hne).symm.trans hsame.world

/-- However the calls of the jobs and the commits of others are interleaved, each job is where it would be
without the other jobs. -/
theorem SameTo.plays (hsame : SameTo opts i c c') (h : Orderly opts base c) (h' : Orderly opts base c')
    (moves : List (Move ι)) : SameTo opts i (c.plays moves) (c'.plays (moves.filter (·.concerns i))) := by
  -- What the other jobs do is left out of the second company only, so the two are not the same world.
  induction moves generalizing c c' with
  | nil => exact hsame
  | cons move rest ih =>
    by_cases hmove : move.concerns i = true
    · rw [List.filter_cons_of_pos hmove]
      exact ih (hsame.takes h h' hmove) (h.takes move) (h'.takes move)
    · rw [List.filter_cons_of_neg hmove]
      cases move with
      | commits => exact absurd rfl hmove
      | call j =>
        have hne : i ≠ j := by simpa [Move.concerns] using hmove
        exact ih (hsame.ignores h hne) (h.takes _) h'

end Company

/-! ### What jobs leave to each other -/

namespace World

/-- What is a job's own, and the database's tables, log and last transaction id, are as they were. -/
structure Untouched (j : SimulatedJob) (w w' : World) : Prop where
  tables : w'.database.tables = w.database.tables
  log : w'.database.log = w.database.log
  lastTxid : w'.database.lastTxid = w.database.lastTxid
  documents : (w'.sink j.wiring.sink).stored j.job.options.index =
    (w.sink j.wiring.sink).stored j.job.options.index
  slot : w'.database.slots.get? j.job.options.slotName = w.database.slots.get? j.job.options.slotName
  checkpoint : w'.mark j.wiring.store j.job.options.index = w.mark j.wiring.store j.job.options.index
  pending : w'.backlog j.wiring.buffer = w.backlog j.wiring.buffer

theorem SameBuffer.backlog {name : String} {w w' : World} (h : SameBuffer name w w') :
    w'.backlog name = w.backlog name := by
  unfold World.backlog
  rw [h.buffer]
  cases hstore : (w.buffer name).store with
  | memory => rfl
  | queue file q =>
    have hpending := h.pending file q.channel (by rw [hstore]; rfl)
    simp only [hpending]

theorem SameFor.untouched {j : SimulatedJob} {w w' : World} (h : SameFor j.job.options j.wiring w w') :
    Untouched j w w' where
  tables := by rw [h.database.rest]
  log := by rw [h.database.rest]
  lastTxid := by rw [h.database.rest]
  documents := h.sink.stored
  slot := h.database.slot
  checkpoint := h.store.mark
  pending := h.buffer.backlog

end World

namespace Company

variable {ι : Type} [DecidableEq ι]

theorem plays_wiring (c : Company ι) (moves : List (Move ι)) (i : ι) :
    ((c.plays moves).party i).wiring = (c.party i).wiring := by
  induction moves generalizing c with
  | nil => rfl
  | cons move rest ih => exact (ih (c.takes move)).trans (takes_wiring c move i)

/-- Jobs over one database, sink and store that have neither indices nor slots nor buffers in common do not
interfere.  A cycle of one, whatever it comes to, leaves what is another's, and the scopes that its session has
open.  And where nothing is made to fail, however commits of others are interleaved with the calls of the jobs'
cycles, each index comes to hold what it would hold if only its own job made calls. -/
theorem jobs_do_not_interfere {w : World} {jobs : ι → SimulatedJob}
    (hjobs : ∀ i, IsJob (jobs i).job.options (jobs i).job)
    (hwrites : ∀ i, (w.buffer (jobs i).wiring.buffer).writes = [])
    (hapart : ∀ i j, i ≠ j →
      w.Apart (jobs i).job.options (jobs i).wiring (jobs j).job.options (jobs j).wiring) :
    (∀ i j, i ≠ j → ∀ (kind : CycleKind) (pages : Nat) (result : Except SyncError CycleStats) (job' : Job)
      (site' : Site), World.runRoutine (jobs i).wiring ((kind.cycle pages).run.run (jobs i).job)
          (w, (jobs i).frames) = (some (result, job'), site') →
        site'.2 = (jobs i).frames ∧ w.Untouched (jobs j) site'.1) ∧
    ((∀ point, w.faults.count point = 0) → (∀ i, (w.sink (jobs i).wiring.sink).failures = 0) →
      ∀ (cycles : ι → List (CycleKind × Nat)) (moves : List (Move ι)) (i : ι),
        ((start w jobs cycles).plays moves).documents jobs i =
          ((start w jobs cycles).plays (moves.filter (·.concerns i))).documents jobs i) := by
  refine ⟨fun i j hne kind pages result job' site' hran => ?_, fun hfaults hfailures cycles moves i => ?_⟩
  · obtain ⟨hsame, hframes⟩ :=
      World.cycle_apart (hjobs i) (hapart i j hne) (hwrites i) kind pages (jobs i).frames
    rw [hran] at hsame hframes
    exact ⟨hframes _ rfl, hsame.untouched⟩
  · have horderly : Orderly (fun i => (jobs i).job.options) (fun i => (jobs i).frames) (start w jobs cycles) := by
      refine ⟨fun i => ⟨hfaults, hfailures i, hwrites i⟩, hapart, fun i => ?_⟩
      exact ⟨0, (List.append_nil _).symm, Own.series_follows (cycles i) (hjobs i)⟩
    have hsame := SameTo.plays (i := i) ⟨rfl, .refl _ _ w⟩ horderly horderly moves
    have hworld := hsame.world
    rw [plays_wiring] at hworld
    exact hworld.sink.stored.symm

/-! Two jobs keep the books in an index each, and have a channel each of one queue file. -/

def keeper (index : String) : SimulatedJob where
  job := .ofPlan (Job.bookJob "").plan ⟨index, index, 10, 10, 0, .none⟩
  wiring := ⟨index, "main", "marks", [], false, false, false⟩
  frames := []

def keepers : Bool → SimulatedJob
  | true => keeper "books"
  | false => keeper "volumes"

def channel (name : String) : NamedBuffer := ⟨.queue "queue" (.onChannel name 100), 0, []⟩

/-- A library with one book. -/
def library : World :=
  { World.empty Job.bookSchema Job.bookSchema "" "" with
    feeds := ["books", "volumes"]
    buffers := [("books", channel "books"), ("volumes", channel "volumes")] }.tries
      [.insert "book" [("isbn", .string "a")]]

/-- The calls of both jobs alternate, and a book comes while they resync. -/
def alternating : List (Move Bool) :=
  let calls (n : Nat) : List (Move Bool) := (List.replicate n [.call true, .call false]).flatten
  calls 8 ++ .commits [.insert "book" [("isbn", .string "b")]] :: calls 30

theorem keepers_apart (i j : Bool) (hne : i ≠ j) :
    library.Apart (keepers i).job.options (keepers i).wiring (keepers j).job.options (keepers j).wiring := by
  have hplace : ∀ i : Bool, (library.buffer (keepers i).wiring.buffer).store.place =
      some ("queue", (keepers i).wiring.buffer) := by decide +kernel
  have hnames : ∀ i j : Bool, i ≠ j → (keepers i).wiring.buffer ≠ (keepers j).wiring.buffer := by decide +kernel
  have hindices : ∀ i j : Bool, i ≠ j → (keepers i).job.options.index ≠ (keepers j).job.options.index := by
    decide +kernel
  have hslots : ∀ i j : Bool, i ≠ j → (keepers i).job.options.slotName ≠ (keepers j).job.options.slotName := by
    decide +kernel
  refine ⟨by cases i <;> cases j <;> rfl, by cases i <;> cases j <;> rfl, hindices i j hne, hslots i j hne,
    hnames i j hne, fun place hi hj => hnames i j hne ?_⟩
  rw [hplace] at hi hj
  exact (Prod.mk.inj (Option.some.inj (hi.trans hj.symm))).2

theorem jobs_do_not_interfere_keepers :
    (∃ stats job' site', World.runRoutine (keeper "books").wiring
        ((CycleKind.resync.cycle 2).run.run (keeper "books").job) (library, []) =
          (some (.ok stats, job'), site') ∧
      site'.2 = [] ∧ library.Untouched (keeper "volumes") site'.1) ∧
    ((start library keepers fun _ => [(.resync, 2), (.receive, 2)]).plays alternating).documents keepers true =
      ((start library keepers fun _ => [(.resync, 2), (.receive, 2)]).plays
        (alternating.filter (·.concerns true))).documents keepers true ∧
    (((start library keepers fun _ => [(.resync, 2), (.receive, 2)]).plays alternating).documents
      keepers true).keys = ["a", "b"] := by
  have hjobs (i : Bool) : IsJob (keepers i).job.options (keepers i).job := by
    cases i <;> exact Own.isJob_ofPlan _ _
  have hwrites : ∀ i : Bool, (library.buffer (keepers i).wiring.buffer).writes = [] := by decide +kernel
  have hfailures : ∀ i : Bool, (library.sink (keepers i).wiring.sink).failures = 0 := by decide +kernel
  have hfaults (point : FaultPoint) : library.faults.count point = 0 := by
    have harmed : library.faults.armed = [] := by decide +kernel
    rw [Faults.count, harmed]
    rfl
  obtain ⟨halone, htogether⟩ := jobs_do_not_interfere hjobs hwrites keepers_apart
  refine ⟨?_, htogether hfaults hfailures _ alternating true, by decide +kernel⟩
  have hok : (World.runRoutine (keeper "books").wiring ((CycleKind.resync.cycle 2).run.run (keeper "books").job)
      (library, [])).1.map (·.1.isOk) = some true := by decide +kernel
  rcases hran : World.runRoutine (keeper "books").wiring
    ((CycleKind.resync.cycle 2).run.run (keeper "books").job) (library, []) with ⟨_ | ⟨_ | stats, job'⟩, site'⟩
  · rw [hran] at hok
    contradiction
  · rw [hran] at hok
    exact absurd (Option.some.inj hok) Bool.false_ne_true
  · exact ⟨stats, job', site', rfl, halone true false nofun .resync 2 (.ok stats) job' site' hran⟩

end Company

end DocSync
