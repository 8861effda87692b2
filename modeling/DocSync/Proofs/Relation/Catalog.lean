import DocSync.Proofs.Keyed
import DocSync.Relation.Catalog
import Mathlib.Data.List.DropRight

/-!
What a cached catalog answers.  The first lookup of a table since it was last forgotten asks the inner catalog,
and every later one repeats that answer, whatever becomes of the inner catalog meanwhile.  Main statement: the
answers after any sequence of steps, and which lookups ask the inner catalog.
-/

namespace DocSync

theorem Schema.ofTables_concat (tables : List Table) (t : Table) :
    Schema.ofTables (tables ++ [t]) = (Schema.ofTables tables).insert t := by
  rw [Schema.ofTables, List.foldl_append]
  rfl

/-- Of several tables of one name the last is found. -/
theorem Schema.table?_ofTables (tables : List Table) (name : String) :
    (Schema.ofTables tables).table? name = tables.reverse.find? (·.name = name) := by
  induction tables using List.reverseRecOn with
  | nil => rfl
  | append_singleton tables t ih =>
    rw [Schema.ofTables_concat, Schema.insert, Schema.table?, Keyed.get?_put, List.reverse_concat]
    by_cases hname : t.name = name
    · rw [if_pos hname, List.find?_cons_of_pos (by simpa using hname)]
    · rw [if_neg hname, List.find?_cons_of_neg (by simpa using hname)]
      exact ih

namespace CachedCatalog

/-! ### Steps -/

/-- A table of the inner catalog is created or altered, or the inner catalog comes to hold other tables; the cache is
made to forget; or a table is looked up. -/
inductive Moment where
  | alter (t : Table)
  | replace (tables : List Table)
  | invalidate (table : String)
  | invalidateAll
  | lookup (table : String)
deriving DecidableEq

/-- What is done to a cached catalog: one such thing, or loading several tables. -/
inductive Step where
  | one (moment : Moment)
  | load (tables : List String)

def Step.moments : Step → List Moment
  | one moment => [moment]
  | load tables => tables.map .lookup

/-- A cached catalog over these tables that was not asked yet. -/
def start (tables : List Table) : CachedCatalog := ofSchema (.ofTables tables)

def pass (c : CachedCatalog) : Moment → CachedCatalog
  | .alter t => c.alter t
  | .replace tables => { c with inner := .ofTables tables }
  | .invalidate table => c.invalidate table
  | .invalidateAll => c.invalidateAll
  | .lookup table => (c.describe table).2

def passAll (c : CachedCatalog) (moments : List Moment) : CachedCatalog := moments.foldl pass c

def take (c : CachedCatalog) : Step → CachedCatalog
  | .one moment => c.pass moment
  | .load tables => (c.load tables).2

def after (c : CachedCatalog) (steps : List Step) : CachedCatalog := steps.foldl take c

/-! ### The last fill -/

/-- The moment makes the cache forget the table. -/
def Moment.covers (table : String) : Moment → Bool
  | invalidate other => other = table
  | invalidateAll => true
  | _ => false

/-- The moments since the cache was last made to forget the table. -/
def sinceForgotten (table : String) (moments : List Moment) : List Moment :=
  moments.rtakeWhile fun moment => !moment.covers table

/-- The moments before the first lookup of the table since the cache was last made to forget it. -/
def beforeFill (table : String) (moments : List Moment) : List Moment :=
  moments.rdropWhile (fun moment => !moment.covers table) ++
    (sinceForgotten table moments).takeWhile (· ≠ .lookup table)

/-- The tables of the inner catalog, which held `tables` at the start. -/
def heldAfter (tables : List Table) (moments : List Moment) : List Table :=
  moments.foldl (fun held moment => match moment with
    | .alter t => held ++ [t]
    | .replace tables => tables
    | _ => held) tables

/-- What the inner catalog said of a table at its first lookup since it was last forgotten. -/
def lastFill (tables : List Table) (moments : List Moment) (table : String) : Option Table :=
  (Schema.ofTables (heldAfter tables (beforeFill table moments))).table? table

/-! ### Which lookups ask the inner catalog -/

/-- The table that the inner catalog is asked for, as its count of lookups tells. -/
def asks (c : CachedCatalog) : Moment → List String
  | .lookup table => if (c.describe table).2.lookups = c.lookups then [] else [table]
  | _ => []

/-- The tables that the inner catalog is asked for, in order. -/
def asked : CachedCatalog → List Moment → List String
  | _, [] => []
  | c, moment :: rest => c.asks moment ++ asked (c.pass moment) rest

/-! ### Single lookups -/

variable {c c' : CachedCatalog} {table other : String} {tables : List Table} {moment : Moment}
  {moments : List Moment}

theorem describe_answer (c : CachedCatalog) (table : String) :
    (c.describe table).1 = (c.cache.get? table).getD (c.inner.table? table) := by
  unfold describe
  split
  · rename_i answer hcached
    rw [hcached]
    rfl
  · rename_i hmissing
    rw [hmissing]
    rfl

@[simp] theorem describe_inner (c : CachedCatalog) (table : String) : (c.describe table).2.inner = c.inner := by
  unfold describe
  split <;> rfl

theorem get?_describe (c : CachedCatalog) (table other : String) : (c.describe table).2.cache.get? other =
    if table = other then some (c.describe table).1 else c.cache.get? other := by
  unfold describe
  split
  · rename_i answer hcached
    by_cases hsame : table = other
    · rw [if_pos hsame, ← hsame, hcached]
    · rw [if_neg hsame]
  · exact Keyed.get?_put _ _ _ _

theorem lookups_describe (c : CachedCatalog) (table : String) :
    (c.describe table).2.lookups = c.lookups + if (c.cache.get? table).isSome then 0 else 1 := by
  unfold describe
  split <;> simp [*]

theorem asks_lookup (c : CachedCatalog) (table : String) :
    c.asks (.lookup table) = if (c.cache.get? table).isSome then [] else [table] := by
  rw [asks, lookups_describe]
  split <;> simp

/-- A lookup does not change any answer. -/
theorem describe_describe (c : CachedCatalog) (table other : String) :
    ((c.describe table).2.describe other).1 = (c.describe other).1 := by
  rw [describe_answer, get?_describe, describe_inner]
  by_cases hsame : table = other
  · rw [if_pos hsame, hsame]
    rfl
  · rw [if_neg hsame, describe_answer]

theorem describe_passAll_lookups (c : CachedCatalog) (wanted : List String) (other : String) :
    ((c.passAll (wanted.map .lookup)).describe other).1 = (c.describe other).1 := by
  induction wanted generalizing c with
  | nil => rfl
  | cons table rest ih => exact (ih (c.describe table).2).trans (describe_describe c table other)

/-! ### Loading -/

/-- Loading looks the tables up one by one, and keeps those that are described. -/
theorem load_eq (c : CachedCatalog) (wanted : List String) : c.load wanted =
    (.ofTables (wanted.filterMap fun table => (c.describe table).1), c.passAll (wanted.map .lookup)) := by
  induction wanted using List.reverseRecOn with
  | nil => rfl
  | append_singleton wanted table ih =>
    rw [load, List.foldl_append, ← load, ih, List.foldl_cons, List.foldl_nil]
    simp only [describe_passAll_lookups]
    rw [List.map_append, passAll, passAll, List.foldl_append, List.filterMap_append]
    cases hanswer : (c.describe table).1 with
    | none => simp [hanswer, pass]
    | some t => simp [hanswer, pass, Schema.ofTables_concat]

theorem take_eq (c : CachedCatalog) (step : Step) : c.take step = c.passAll step.moments := by
  cases step with
  | one moment => rfl
  | load wanted => exact congrArg Prod.snd (load_eq c wanted)

theorem after_eq (c : CachedCatalog) (steps : List Step) : c.after steps = c.passAll (steps.flatMap Step.moments) := by
  induction steps generalizing c with
  | nil => rfl
  | cons step rest ih =>
    rw [List.flatMap_cons, passAll, List.foldl_append, ← passAll, ← passAll, ← take_eq]
    exact ih (c.take step)

/-! ### What the cache holds -/

theorem covers_lookup (table other : String) : (Moment.lookup other).covers table = false := rfl

theorem sinceForgotten_concat (hcovers : moment.covers table = false) :
    sinceForgotten table (moments ++ [moment]) = sinceForgotten table moments ++ [moment] := by
  rw [sinceForgotten, List.rtakeWhile_concat_pos _ _ _ (by simp [hcovers])]
  rfl

theorem sinceForgotten_concat_of_covers (hcovers : moment.covers table = true) :
    sinceForgotten table (moments ++ [moment]) = [] :=
  List.rtakeWhile_concat_neg _ _ _ (by simp [hcovers])

/-- Once the table was looked up, the place of the first lookup stays until it is forgotten. -/
theorem beforeFill_concat (hcovers : moment.covers table = false)
    (hfound : .lookup table ∈ sinceForgotten table moments) :
    beforeFill table (moments ++ [moment]) = beforeFill table moments := by
  rw [beforeFill, beforeFill, sinceForgotten_concat hcovers,
    List.rdropWhile_concat_pos _ _ _ (by simp [hcovers])]
  have hstops : ((sinceForgotten table moments).takeWhile (· ≠ .lookup table)).length ≠
      (sinceForgotten table moments).length := fun hlength => by
    have hall := (List.takeWhile_prefix (· ≠ Moment.lookup table)).eq_of_length hlength
    have := List.takeWhile_eq_self_iff.mp hall _ hfound
    simp at this
  rw [List.takeWhile_append, if_neg hstops]

/-- The first lookup is preceded by all there was before. -/
theorem beforeFill_concat_lookup (hfirst : .lookup table ∉ sinceForgotten table moments) :
    beforeFill table (moments ++ [.lookup table]) = moments := by
  have hquiet : ∀ moment ∈ sinceForgotten table moments, (decide (moment ≠ .lookup table)) = true :=
    fun moment hmem => decide_eq_true fun heq => hfirst (heq ▸ hmem)
  rw [beforeFill, sinceForgotten_concat (covers_lookup table table),
    List.rdropWhile_concat_pos _ _ _ (by simp [covers_lookup]), List.takeWhile_append_of_pos hquiet,
    List.takeWhile_cons_of_neg (by simp), List.append_nil, sinceForgotten, List.rdropWhile_append_rtakeWhile]

theorem heldAfter_concat (tables : List Table) (moments : List Moment) (moment : Moment) :
    heldAfter tables (moments ++ [moment]) = match moment with
      | .alter t => heldAfter tables moments ++ [t]
      | .replace tables' => tables'
      | _ => heldAfter tables moments := by
  rw [heldAfter, List.foldl_append]
  cases moment <;> rfl

theorem passAll_concat (c : CachedCatalog) (moments : List Moment) (moment : Moment) :
    c.passAll (moments ++ [moment]) = (c.passAll moments).pass moment := by
  rw [passAll, List.foldl_append]
  rfl

theorem inner_passAll (tables : List Table) (moments : List Moment) :
    ((start tables).passAll moments).inner = .ofTables (heldAfter tables moments) := by
  induction moments using List.reverseRecOn with
  | nil => rfl
  | append_singleton moments moment ih =>
    rw [passAll_concat, heldAfter_concat]
    cases moment with
    | alter t =>
      rw [Schema.ofTables_concat, ← ih]
      rfl
    | replace tables' => rfl
    | lookup table => exact (describe_inner _ table).trans ih
    | _ => exact ih

/-- What a moment that neither covers the table nor looks it up leaves in the cache. -/
theorem get?_pass (c : CachedCatalog) (hcovers : moment.covers table = false) (hlookup : moment ≠ .lookup table) :
    (c.pass moment).cache.get? table = c.cache.get? table := by
  cases moment with
  | alter | replace => rfl
  | invalidate other =>
    refine (Keyed.get?_erase c.cache other table).trans (if_neg ?_)
    simpa [Moment.covers] using hcovers
  | invalidateAll => contradiction
  | lookup other =>
    refine (get?_describe c other table).trans (if_neg ?_)
    simpa using hlookup

theorem get?_pass_of_covers (c : CachedCatalog) (hcovers : moment.covers table = true) :
    (c.pass moment).cache.get? table = none := by
  cases moment with
  | invalidate other =>
    refine (Keyed.get?_erase c.cache other table).trans (if_pos ?_)
    simpa [Moment.covers] using hcovers
  | invalidateAll => rfl
  | alter | replace | lookup => contradiction

/-- The cache holds the last fill of every table that was looked up since it was forgotten. -/
theorem get?_passAll (tables : List Table) (moments : List Moment) (table : String) :
    ((start tables).passAll moments).cache.get? table =
      if .lookup table ∈ sinceForgotten table moments then some (lastFill tables moments table) else none := by
  induction moments using List.reverseRecOn with
  | nil => rfl
  | append_singleton moments moment ih =>
    rw [passAll_concat]
    by_cases hcovers : moment.covers table = true
    · rw [get?_pass_of_covers _ hcovers, sinceForgotten_concat_of_covers hcovers]
      rfl
    rw [Bool.not_eq_true] at hcovers
    have hkept : .lookup table ∈ sinceForgotten table moments →
        lastFill tables (moments ++ [moment]) table = lastFill tables moments table := fun hfound => by
      rw [lastFill, beforeFill_concat hcovers hfound, lastFill]
    by_cases hlookup : moment = .lookup table
    · subst hlookup
      rw [sinceForgotten_concat hcovers, if_pos (by simp)]
      refine (get?_describe _ table table).trans ((if_pos rfl).trans (congrArg some ?_))
      rw [describe_answer, ih]
      by_cases hfound : .lookup table ∈ sinceForgotten table moments
      · rw [if_pos hfound, hkept hfound]
        rfl
      · rw [if_neg hfound, lastFill, beforeFill_concat_lookup hfound, inner_passAll]
        rfl
    · rw [get?_pass _ hcovers hlookup, ih, sinceForgotten_concat hcovers]
      by_cases hfound : .lookup table ∈ sinceForgotten table moments
      · rw [if_pos hfound, if_pos (List.mem_append_left _ hfound), hkept hfound]
      · rw [if_neg hfound, if_neg (by simp [hfound, Ne.symm hlookup])]

/-- An answer is the last fill, the lookup itself included. -/
theorem describe_passAll (tables : List Table) (moments : List Moment) (table : String) :
    (((start tables).passAll moments).describe table).1 = lastFill tables (moments ++ [.lookup table]) table := by
  have hcached := get?_passAll tables (moments ++ [.lookup table]) table
  rw [sinceForgotten_concat (covers_lookup table table), if_pos (by simp), passAll_concat] at hcached
  refine Option.some.inj (Eq.trans ?_ hcached)
  exact ((get?_describe _ table table).trans (if_pos rfl)).symm

/-! ### Asking once -/

theorem lookups_pass (c : CachedCatalog) (moment : Moment) :
    (c.pass moment).lookups = c.lookups + (c.asks moment).length := by
  cases moment with
  | lookup table =>
    rw [asks_lookup, pass, lookups_describe]
    split <;> rfl
  | _ => rfl

/-- The inner catalog counts what it is asked. -/
theorem lookups_passAll (c : CachedCatalog) (moments : List Moment) :
    (c.passAll moments).lookups = c.lookups + (c.asked moments).length := by
  induction moments generalizing c with
  | nil => rfl
  | cons moment rest ih =>
    refine (ih (c.pass moment)).trans ?_
    rw [lookups_pass, asked, List.length_append, Nat.add_assoc]

theorem count_asks_of_ne (c : CachedCatalog) (hlookup : moment ≠ .lookup table) :
    (c.asks moment).count table = 0 := by
  cases moment with
  | lookup other =>
    have hother : other ≠ table := by simpa using hlookup
    rw [asks_lookup]
    split
    · rfl
    · exact List.count_eq_zero.mpr (by simpa using hother.symm)
  | _ => rfl

theorem count_asks_lookup (c : CachedCatalog) (table : String) :
    (c.asks (.lookup table)).count table = if (c.cache.get? table).isSome then 0 else 1 := by
  rw [asks_lookup]
  split <;> simp

/-- Until it is forgotten, a table is asked for at its first lookup only, and not at all while it is cached. -/
theorem count_asked (c : CachedCatalog) (hcovers : ∀ moment ∈ moments, moment.covers table = false) :
    (c.asked moments).count table =
      if (c.cache.get? table).isNone ∧ .lookup table ∈ moments then 1 else 0 := by
  induction moments generalizing c with
  | nil => simp [asked]
  | cons moment rest ih =>
    obtain ⟨hmoment, hrest⟩ := List.forall_mem_cons.mp hcovers
    rw [asked, List.count_append, ih (c.pass moment) hrest]
    by_cases hlookup : moment = .lookup table
    · subst hlookup
      have hfilled : (c.pass (.lookup table)).cache.get? table = some (c.describe table).1 :=
        (get?_describe c table table).trans (if_pos rfl)
      rw [hfilled, count_asks_lookup]
      cases c.cache.get? table <;> simp
    · rw [count_asks_of_ne c hlookup, get?_pass c hmoment hlookup, Nat.zero_add]
      simp [Ne.symm hlookup]

/-! ### One table apart from the others -/

/-- Two catalogs do the same for a table. -/
structure SameFor (table : String) (c c' : CachedCatalog) : Prop where
  inner : c.inner = c'.inner
  cached : c.cache.get? table = c'.cache.get? table

theorem SameFor.describe (h : SameFor table c c') : (c.describe table).1 = (c'.describe table).1 := by
  rw [describe_answer, describe_answer, h.inner, h.cached]

theorem SameFor.pass (h : SameFor table c c') (moment : Moment) : SameFor table (c.pass moment) (c'.pass moment) := by
  constructor
  · cases moment with
    | alter t => exact congrArg (·.insert t) h.inner
    | replace tables => rfl
    | lookup other => exact (describe_inner c other).trans (h.inner.trans (describe_inner c' other).symm)
    | _ => exact h.inner
  · by_cases hcovers : moment.covers table = true
    · rw [get?_pass_of_covers c hcovers, get?_pass_of_covers c' hcovers]
    rw [Bool.not_eq_true] at hcovers
    by_cases hlookup : moment = .lookup table
    · subst hlookup
      rw [CachedCatalog.pass, CachedCatalog.pass, get?_describe, get?_describe, h.describe]
      simp
    · rw [get?_pass c hcovers hlookup, get?_pass c' hcovers hlookup, h.cached]

theorem SameFor.passAll (h : SameFor table c c') (moments : List Moment) :
    SameFor table (c.passAll moments) (c'.passAll moments) := by
  induction moments generalizing c c' with
  | nil => exact h
  | cons moment rest ih => exact ih (h.pass moment)

theorem SameFor.count_asked (h : SameFor table c c') (moments : List Moment) :
    (c.asked moments).count table = (c'.asked moments).count table := by
  induction moments generalizing c c' with
  | nil => rfl
  | cons moment rest ih =>
    rw [asked, asked, List.count_append, List.count_append, ih (h.pass moment)]
    by_cases hlookup : moment = .lookup table
    · rw [hlookup, count_asks_lookup, count_asks_lookup, h.cached]
    · rw [count_asks_of_ne c hlookup, count_asks_of_ne c' hlookup]

theorem sameFor_invalidate (c : CachedCatalog) (hother : other ≠ table) : SameFor other (c.invalidate table) c :=
  ⟨rfl, (Keyed.get?_erase c.cache table other).trans (if_neg hother.symm)⟩

/-! ### Snapshots -/

theorem name_of_lastFill {t : Table} (h : lastFill tables moments table = some t) : t.name = table := by
  rw [lastFill, Schema.table?_ofTables] at h
  simpa using List.find?_some h

/-- A snapshot of described tables has what was described under each name. -/
theorem table?_snapshot {answer : String → Option Table} (hname : ∀ table t, answer table = some t → t.name = table)
    (wanted : List String) (table : String) : (Schema.ofTables (wanted.filterMap answer)).table? table =
      if table ∈ wanted then answer table else none := by
  rw [Schema.table?_ofTables]
  induction wanted using List.reverseRecOn with
  | nil => rfl
  | append_singleton wanted last ih =>
    rw [List.filterMap_append, List.reverse_append, List.find?_append, ih]
    by_cases hlast : last = table
    · subst hlast
      rw [if_pos (List.mem_append_right _ List.mem_cons_self)]
      cases hanswer : answer last with
      | none => simp [hanswer]
      | some t => simp [hanswer, hname last t hanswer]
    · have hskip : (List.filterMap answer [last]).reverse.find? (·.name = table) = none := by
        cases hanswer : answer last with
        | none => simp [hanswer]
        | some t => simp [hanswer, hname last t hanswer, hlast]
      rw [hskip, Option.none_or]
      simp [Ne.symm hlast]

/-- After any steps a table is answered with what the inner catalog said of it at its first lookup since the cache
was last made to forget it.  A load gives exactly the described ones of the wanted tables.  Between the moments that
make the cache forget a table the inner catalog is asked for it once if it is looked up at all, and for nothing but
lookups; and that another table is forgotten changes neither answers nor what is asked. -/
theorem answers_last_fill (tables : List Table) (steps : List Step) :
    let c := (start tables).after steps
    let moments := steps.flatMap Step.moments
    (∀ table, (c.describe table).1 = lastFill tables (moments ++ [.lookup table]) table) ∧
    (∀ wanted table, (c.load wanted).1.table? table =
      if table ∈ wanted then (c.describe table).1 else none) ∧
    (∀ table (later : List Step), .lookup table ∉ sinceForgotten table moments →
      (∀ moment ∈ later.flatMap Step.moments, moment.covers table = false) →
      (c.asked (later.flatMap Step.moments)).count table =
        if .lookup table ∈ later.flatMap Step.moments then 1 else 0) ∧
    (∀ later : List Step, (c.after later).lookups =
      c.lookups + (c.asked (later.flatMap Step.moments)).length) ∧
    (∀ table other (later : List Step), other ≠ table →
      (((c.invalidate table).after later).describe other).1 = ((c.after later).describe other).1 ∧
      ((c.invalidate table).asked (later.flatMap Step.moments)).count other =
        (c.asked (later.flatMap Step.moments)).count other) := by
  intro c moments
  have hc : c = (start tables).passAll moments := after_eq (start tables) steps
  have hanswer : ∀ table, (c.describe table).1 = lastFill tables (moments ++ [.lookup table]) table := fun table => by
    rw [hc, describe_passAll]
  refine ⟨hanswer, fun wanted table => ?_, fun table later hfirst hcovers => ?_, fun later => ?_,
    fun table other later hother => ?_⟩
  · rw [load_eq]
    refine table?_snapshot (fun name t h => ?_) wanted table
    exact name_of_lastFill ((hanswer name).symm.trans h)
  · have hmissing : c.cache.get? table = none := by rw [hc, get?_passAll, if_neg hfirst]
    rw [count_asked c hcovers, hmissing]
    simp only [Option.isNone_none, true_and]
  · rw [after_eq, lookups_passAll]
  · have hsame := sameFor_invalidate c hother
    rw [after_eq, after_eq]
    exact ⟨(hsame.passAll _).describe, hsame.count_asked _⟩

def authorTable : Table := ⟨"author", [⟨"id", "integer"⟩, ⟨"name", "text"⟩], ["id"], []⟩

/-- A table that comes into being after it was looked up stays missing until it is forgotten; then a load asks for it
once, and the answer for another table stays. -/
theorem answers_last_fill_of_author :
    let steps : List Step := [.load ["author", "book"], .one (.alter authorTable)]
    let forgotten := steps ++ [.one (.invalidate "author")]
    let later : List Step := [.load ["author", "book"], .one (.lookup "author")]
    (((start []).after steps).describe "author").1 = none ∧
    (((start []).after forgotten).load ["author", "book"]).1.table? "author" = some authorTable ∧
    .lookup "author" ∉ sinceForgotten "author" (forgotten.flatMap Step.moments) ∧
    (∀ moment ∈ later.flatMap Step.moments, moment.covers "author" = false) ∧
    (((start []).after forgotten).asked (later.flatMap Step.moments)).count "author" = 1 ∧
    "book" ≠ "author" ∧
    (((((start []).after steps).invalidate "author").after later).describe "book").1 =
      ((((start []).after steps).after later).describe "book").1 := by
  intro steps forgotten later
  obtain ⟨hanswer, -, -, -, hother⟩ := answers_last_fill [] steps
  obtain ⟨hforgotten, hload, hasked, -, -⟩ := answers_last_fill [] forgotten
  have hfirst : .lookup "author" ∉ sinceForgotten "author" (forgotten.flatMap Step.moments) := by decide
  have hcovers : ∀ moment ∈ later.flatMap Step.moments, moment.covers "author" = false := by decide
  have hne : "book" ≠ "author" := by decide
  refine ⟨(hanswer "author").trans (by decide), ?_, hfirst, hcovers,
    (hasked "author" later hfirst hcovers).trans (by decide), hne, (hother "author" "book" later hne).1⟩
  rw [hload, if_pos (by decide), hforgotten]
  decide

end CachedCatalog

end DocSync
