import EarnProxy.Library.History
import Mathlib.Data.Fintype.Basic
import Mathlib.Logic.Function.Basic

/-!
# Publishing a view of a store by write and rename

Threads commit to one store. After a commit that owes it, a thread publishes: it reads the view of
the store, opens a temporary file that all threads share, which empties it, writes the view into it
and renames it over the published one. Nothing keeps the publications of two threads apart: a rename
may take a file that another thread has only emptied, or find none to take, and a thread writes into
the file it has opened even when that has been renamed since.
-/

namespace Publication

variable {σ ε ι ν : Type*}

/-- How far a thread is with its publication; an open file keeps its number when it is renamed. -/
inductive Stage (ν : Type*) where
  | owed
  | read (view : ν)
  | opened (view : ν) (number : ℕ)
  | written
  deriving DecidableEq, Repr

structure State (σ ι ν : Type*) where
  store : σ
  stage : ι → Option (Stage ν) := fun _ => none
  /-- What was written into a file since it was last emptied, each text over the one before. -/
  texts : ℕ → List ν
  /-- The number of the next new file. -/
  created : ℕ := 1
  temporary : Option ℕ := none
  published : ℕ := 0

/-- What the published file holds: nothing, one text, or the newest over older ones. -/
def State.file (s : State σ ι ν) : List ν := s.texts s.published

inductive Event (ε ι : Type*) where
  | commit (thread : ι) (e : ε)
  | read (thread : ι)
  | truncate (thread : ι)
  | write (thread : ι)
  | replace (thread : ι)
  deriving DecidableEq, Repr

/-- The commits of a store, those after which the thread publishes, and what it publishes. -/
structure Publisher (σ ε ν : Type*) where
  next : σ → ε → Option σ
  owes : σ → ε → Bool
  view : σ → ν

/-- Thread `i` is now this far. -/
def State.at [DecidableEq ι] (s : State σ ι ν) (i : ι) (stage : Option (Stage ν)) : State σ ι ν :=
  { s with stage := Function.update s.stage i stage }

/-- The file that opening the temporary one for writing empties: the one of that name, or a new
one. -/
def State.target (s : State σ ι ν) : ℕ := s.temporary.getD s.created

def State.truncated (s : State σ ι ν) : State σ ι ν :=
  { s with
    texts := Function.update s.texts s.target []
    created := if s.temporary.isSome then s.created else s.created + 1
    temporary := some s.target }

/-- The text goes to the beginning of the open file. -/
def State.wrote (s : State σ ι ν) (number : ℕ) (v : ν) : State σ ι ν :=
  { s with texts := Function.update s.texts number (v :: s.texts number) }

/-- A rename without a temporary file raises. -/
def State.replaced (s : State σ ι ν) : State σ ι ν :=
  { s with temporary := none, published := s.temporary.getD s.published }

variable (P : Publisher σ ε ν)

/-- One event; the thread ends with the rename, also when that raises. -/
def State.next [DecidableEq ι] (s : State σ ι ν) : Event ε ι → Option (State σ ι ν)
  | .commit i e =>
    match s.stage i with
    | some _ => none
    | none => (P.next s.store e).map fun store =>
      { s with store }.at i (if P.owes s.store e then some .owed else none)
  | .read i =>
    match s.stage i with
    | some .owed => some (s.at i (some (.read (P.view s.store))))
    | _ => none
  | .truncate i =>
    match s.stage i with
    | some (.read v) => some (s.truncated.at i (some (.opened v s.target)))
    | _ => none
  | .write i =>
    match s.stage i with
    | some (.opened v number) => some ((s.wrote number v).at i (some .written))
    | _ => none
  | .replace i =>
    match s.stage i with
    | some .written => some (s.replaced.at i none)
    | _ => none

def Step [DecidableEq ι] (s : State σ ι ν) (e : Event ε ι) (s' : State σ ι ν) : Prop :=
  s.next P e = some s'

/-- Thread `i` is between the read and the rename. -/
def State.UnderWay (s : State σ ι ν) (i : ι) : Prop := s.stage i ≠ none ∧ s.stage i ≠ some .owed

/-- No thread has anything left to publish. -/
def State.Settled (s : State σ ι ν) : Prop := ∀ i, s.stage i = none

/-- A publication begins when no other is under way. -/
def Event.Serial (s : State σ ι ν) : Event ε ι → Prop
  | .read _ => ∀ i, ¬ s.UnderWay i
  | _ => True

/-- The commit meets `C`. -/
def Event.Meets (C : σ → ε → Prop) (s : State σ ι ν) : Event ε ι → Prop
  | .commit _ e => C s.store e
  | _ => True

instance UnderWay.decidable [DecidableEq ν] (s : State σ ι ν) (i : ι) : Decidable (s.UnderWay i) :=
  inferInstanceAs (Decidable (_ ∧ _))

instance Settled.decidable [Fintype ι] [DecidableEq ν] (s : State σ ι ν) : Decidable s.Settled :=
  inferInstanceAs (Decidable (∀ i, s.stage i = none))

instance Serial.decidable [Fintype ι] [DecidableEq ν] (s : State σ ι ν) :
    ∀ e : Event ε ι, Decidable (e.Serial s)
  | .commit .. | .truncate _ | .write _ | .replace _ => inferInstanceAs (Decidable True)
  | .read _ => inferInstanceAs (Decidable (∀ i, ¬ s.UnderWay i))

instance Meets.decidable (C : σ → ε → Prop) [∀ s e, Decidable (C s e)] (s : State σ ι ν) :
    ∀ e : Event ε ι, Decidable (e.Meets C s)
  | .commit _ e => inferInstanceAs (Decidable (C s.store e))
  | .read _ | .truncate _ | .write _ | .replace _ => inferInstanceAs (Decidable True)

/-- The store is as it was started, and the published file holds its view. -/
structure State.Started (s : State σ ι ν) : Prop where
  settled : s.Settled
  file : s.file = [P.view s.store]
  others : ∀ n, n ≠ s.published → s.texts n = []
  temporary : s.temporary = none
  numbered : s.published < s.created

/-- The view of the store in some state of the run. -/
def Seen (s₀ : State σ ι ν) (h : List (Event ε ι × State σ ι ν)) (v : ν) : Prop :=
  ∃ s, History.Visited s₀ h s ∧ v = P.view s.store

variable {P}

theorem Seen.later {s₀ : State σ ι ν} {h : List (Event ε ι × State σ ι ν)} {v : ν}
    (hv : Seen P s₀ h v) (x : Event ε ι × State σ ι ν) : Seen P s₀ (x :: h) v :=
  let ⟨s, hs, hview⟩ := hv
  ⟨s, hs.later x, hview⟩

theorem State.UnderWay.of_stage {s : State σ ι ν} {i : ι} {stage : Stage ν}
    (h : s.stage i = some stage) (howed : stage ≠ .owed) : s.UnderWay i := by
  simp [State.UnderWay, h, howed]

variable {s s' : State σ ι ν} {e : Event ε ι} {i j : ι} {stage : Option (Stage ν)} {v : ν} {n : ℕ}

@[simp] theorem State.truncated_store : s.truncated.store = s.store := rfl
@[simp] theorem State.truncated_stage : s.truncated.stage = s.stage := rfl
@[simp] theorem State.truncated_published : s.truncated.published = s.published := rfl
@[simp] theorem State.truncated_temporary : s.truncated.temporary = some s.target := rfl
@[simp] theorem State.wrote_store : (s.wrote n v).store = s.store := rfl
@[simp] theorem State.wrote_stage : (s.wrote n v).stage = s.stage := rfl
@[simp] theorem State.wrote_published : (s.wrote n v).published = s.published := rfl
@[simp] theorem State.wrote_temporary : (s.wrote n v).temporary = s.temporary := rfl
@[simp] theorem State.wrote_created : (s.wrote n v).created = s.created := rfl
@[simp] theorem State.replaced_store : s.replaced.store = s.store := rfl
@[simp] theorem State.replaced_stage : s.replaced.stage = s.stage := rfl
@[simp] theorem State.replaced_texts : s.replaced.texts = s.texts := rfl
@[simp] theorem State.replaced_temporary : s.replaced.temporary = none := rfl
@[simp] theorem State.replaced_created : s.replaced.created = s.created := rfl

variable [DecidableEq ι]

@[simp] theorem State.at_store : (s.at i stage).store = s.store := rfl
@[simp] theorem State.at_texts : (s.at i stage).texts = s.texts := rfl
@[simp] theorem State.at_created : (s.at i stage).created = s.created := rfl
@[simp] theorem State.at_temporary : (s.at i stage).temporary = s.temporary := rfl
@[simp] theorem State.at_published : (s.at i stage).published = s.published := rfl
@[simp] theorem State.at_file : (s.at i stage).file = s.file := rfl
@[simp] theorem State.at_stage_self : (s.at i stage).stage i = stage := by simp [State.at]

@[simp] theorem State.at_stage_of_ne (h : j ≠ i) : (s.at i stage).stage j = s.stage j := by
  simp [State.at, h]

theorem State.underWay_at_of_ne (h : j ≠ i) : (s.at i stage).UnderWay j ↔ s.UnderWay j := by
  simp [State.UnderWay, h]

/-- What an event does. -/
theorem step_cases (h : Step P s e s') :
    (∃ i a store, e = .commit i a ∧ s.stage i = none ∧ P.next s.store a = some store ∧
      s' = { s with store }.at i (if P.owes s.store a then some .owed else none)) ∨
    (∃ i, e = .read i ∧ s.stage i = some .owed ∧ s' = s.at i (some (.read (P.view s.store)))) ∨
    (∃ i v, e = .truncate i ∧ s.stage i = some (.read v) ∧
      s' = s.truncated.at i (some (.opened v s.target))) ∨
    (∃ i v n, e = .write i ∧ s.stage i = some (.opened v n) ∧
      s' = (s.wrote n v).at i (some .written)) ∨
    (∃ i, e = .replace i ∧ s.stage i = some .written ∧ s' = s.replaced.at i none) := by
  cases e with
  | commit i a =>
    refine .inl ?_
    cases hi : s.stage i with
    | some stage => simp [Step, State.next, hi] at h
    | none =>
      simp only [Step, State.next, hi] at h
      obtain ⟨store, hstore, rfl⟩ := Option.map_eq_some_iff.mp h
      exact ⟨i, a, store, rfl, hi, hstore, rfl⟩
  | read i =>
    refine .inr (.inl ⟨i, rfl, ?_⟩)
    simp only [Step, State.next] at h
    split at h
    · exact ⟨‹_›, (Option.some.inj h).symm⟩
    · cases h
  | truncate i =>
    refine .inr (.inr (.inl ?_))
    simp only [Step, State.next] at h
    split at h
    · exact ⟨i, _, rfl, ‹_›, (Option.some.inj h).symm⟩
    · cases h
  | write i =>
    refine .inr (.inr (.inr (.inl ?_)))
    simp only [Step, State.next] at h
    split at h
    · exact ⟨i, _, _, rfl, ‹_›, (Option.some.inj h).symm⟩
    · cases h
  | replace i =>
    refine .inr (.inr (.inr (.inr ⟨i, rfl, ?_⟩)))
    simp only [Step, State.next] at h
    split at h
    · exact ⟨‹_›, (Option.some.inj h).symm⟩
    · cases h

/-! ## Whatever overlaps -/

/-- Thread `i` is about to write `v`. -/
def State.Carries (s : State σ ι ν) (i : ι) (v : ν) : Prop :=
  s.stage i = some (.read v) ∨ ∃ n, s.stage i = some (.opened v n)

variable (P) in
/-- Only views that the store once had are in the files or on their way there. -/
structure Past (s₀ : State σ ι ν) (h : List (Event ε ι × State σ ι ν))
    (s : State σ ι ν) : Prop where
  texts : ∀ n, ∀ v ∈ s.texts n, Seen P s₀ h v
  carried : ∀ i v, s.Carries i v → Seen P s₀ h v

variable {s₀ : State σ ι ν} {h : List (Event ε ι × State σ ι ν)}

/-- A thread moves on, and what it carries now was seen. -/
theorem Past.at (hp : Past P s₀ h s) (hstage : ∀ v, (s.at i stage).Carries i v → Seen P s₀ h v) :
    Past P s₀ h (s.at i stage) where
  texts := hp.texts
  carried := by
    intro j v hj
    by_cases hij : j = i
    · subst hij
      exact hstage v hj
    · exact hp.carried j v (by simpa [State.Carries, hij] using hj)

omit [DecidableEq ι] in
theorem Past.later (hp : Past P s₀ h s) (x : Event ε ι × State σ ι ν) :
    Past P s₀ (x :: h) s where
  texts := fun n v hv => (hp.texts n v hv).later x
  carried := fun i v hi => (hp.carried i v hi).later x

omit [DecidableEq ι] in
theorem Past.truncated (hp : Past P s₀ h s) : Past P s₀ h s.truncated where
  texts := by
    intro n v hv
    by_cases hn : n = s.target
    · simp [State.truncated, hn] at hv
    · exact hp.texts n v (by simpa [State.truncated, hn] using hv)
  carried := hp.carried

omit [DecidableEq ι] in
theorem Past.wrote (hp : Past P s₀ h s) (hv : Seen P s₀ h v) : Past P s₀ h (s.wrote n v) where
  texts := by
    intro m w hw
    by_cases hm : m = n
    · subst hm
      rcases (by simpa [State.wrote] using hw : w = v ∨ w ∈ s.texts m) with rfl | hw
      · exact hv
      · exact hp.texts m w hw
    · exact hp.texts m w (by simpa [State.wrote, hm] using hw)
  carried := hp.carried

omit [DecidableEq ι] in
theorem State.Started.past (hs : s₀.Started P) : Past P s₀ [] s₀ where
  texts := by
    intro n v hv
    by_cases hn : n = s₀.published
    · subst hn
      have hfile : v ∈ s₀.file := hv
      exact ⟨s₀, .inl rfl, by simpa [hs.file] using hfile⟩
    · simp [hs.others n hn] at hv
  carried := fun i v hi => by simp [State.Carries, hs.settled i] at hi

/-- Whatever overlaps, the published file never holds anything but views that the store once had. -/
theorem file_seen (hs₀ : s₀.Started P) (run : History.Run (Step P) s₀ h s) :
    ∀ v ∈ s.file, Seen P s₀ h v := by
  suffices hpast : Past P s₀ h s from hpast.texts s.published
  refine run.invariant (I := Past P s₀) hs₀.past ?_
  intro h s e s' run hpast hstep
  have hlater : Past P s₀ ((e, s') :: h) s := hpast.later _
  have hnow : Seen P s₀ ((e, s') :: h) (P.view s.store) := ⟨s, run.visited.later _, rfl⟩
  obtain ⟨i, a, store, -, -, -, hs'⟩ | ⟨i, -, -, hs'⟩ | ⟨i, v, -, hi, hs'⟩ | ⟨i, v, n, -, hi, hs'⟩ |
    ⟨i, -, -, hs'⟩ := step_cases hstep
  · have hcommitted : Past P s₀ ((e, s') :: h) { s with store } := ⟨hlater.texts, hlater.carried⟩
    rw [hs'] at hcommitted ⊢
    refine hcommitted.at fun v hv => ?_
    simp [State.Carries] at hv
  · rw [hs'] at hlater hnow ⊢
    refine hlater.at fun v hv => ?_
    obtain rfl : P.view s.store = v := by simpa [State.Carries] using hv
    exact hnow
  · have hv : Seen P s₀ ((e, s') :: h) v := hlater.carried i v (.inl hi)
    rw [hs'] at hlater hv ⊢
    refine hlater.truncated.at fun w hw => ?_
    obtain rfl : v = w := by simpa [State.Carries] using hw
    exact hv
  · have hv : Seen P s₀ ((e, s') :: h) v := hlater.carried i v (.inr ⟨n, hi⟩)
    rw [hs'] at hlater hv ⊢
    refine (hlater.wrote hv).at fun w hw => ?_
    simp [State.Carries] at hw
  · have hreplaced : Past P s₀ ((e, s') :: h) s.replaced := ⟨hlater.texts, hlater.carried⟩
    rw [hs'] at hreplaced ⊢
    refine hreplaced.at fun v hv => ?_
    simp [State.Carries] at hv

/-! ## One publication at a time -/

/-- At most one publication is under way, and it alone has a temporary file, empty until it writes
there. What it carries meets `F`, and so does the published file while none is under way. -/
structure State.InTurn (F : ν → Prop) (s : State σ ι ν) : Prop where
  alone : ∀ i j, s.UnderWay i → s.UnderWay j → i = j
  numbered : s.published < s.created
  temporary : ∀ n, s.temporary = some n → n < s.created ∧ n ≠ s.published
  read : ∀ i v, s.stage i = some (.read v) → s.temporary = none ∧ F v
  opened : ∀ i v n, s.stage i = some (.opened v n) →
    s.temporary = some n ∧ s.texts n = [] ∧ F v
  written : ∀ i, s.stage i = some .written →
    ∃ n v, s.temporary = some n ∧ s.texts n = [v] ∧ F v
  file : ∃ v, s.file = [v] ∧ ((∀ i, ¬ s.UnderWay i) → s.temporary = none ∧ F v)

omit [DecidableEq ι] in
theorem State.Started.inTurn {F : ν → Prop} (hs : s.Started P) (hF : F (P.view s.store)) :
    s.InTurn F where
  alone := fun i j hi => absurd (hs.settled i) hi.1
  numbered := hs.numbered
  temporary := by simp [hs.temporary]
  read := fun i v hi => by simp [hs.settled i] at hi
  opened := fun i v n hi => by simp [hs.settled i] at hi
  written := fun i hi => by simp [hs.settled i] at hi
  file := ⟨_, hs.file, fun _ => ⟨hs.temporary, hF⟩⟩

section Moves

variable {F F' : ν → Prop}

/-- A thread that is not under way commits, or owes a publication. -/
theorem State.InTurn.commit {store : σ} (ht : s.InTurn F) (hi : s.stage i = none)
    (hstage : stage = none ∨ stage = some .owed) (hF : ∀ v, F v → F' v) :
    ({ s with store }.at i stage).InTurn F' := by
  set s' := { s with store }.at i stage with hs'
  have hbefore {j : ι} {st : Stage ν} (hj : s'.stage j = some st) (howed : st ≠ .owed) :
      s.stage j = some st := by
    by_cases hij : j = i
    · subst hij
      rcases hstage with rfl | rfl
      · simp [hs'] at hj
      · simp [hs'] at hj
        exact absurd hj.symm howed
    · simpa [hs', hij] using hj
  have hunder (j : ι) : s'.UnderWay j ↔ s.UnderWay j := by
    by_cases hij : j = i
    · subst hij
      rcases hstage with rfl | rfl <;> simp [State.UnderWay, hs', hi]
    · simp [State.UnderWay, hs', hij]
  refine ⟨fun j k hj hk => ht.alone j k ((hunder j).mp hj) ((hunder k).mp hk), ht.numbered,
    ht.temporary, fun j v hj => ?_, fun j v n hj => ?_, fun j hj => ?_, ?_⟩
  · exact (ht.read j v (hbefore hj (by simp))).imp_right (hF v)
  · obtain ⟨htemp, htexts, hv⟩ := ht.opened j v n (hbefore hj (by simp))
    exact ⟨htemp, htexts, hF v hv⟩
  · obtain ⟨n, v, htemp, htexts, hv⟩ := ht.written j (hbefore hj (by simp))
    exact ⟨n, v, htemp, htexts, hF v hv⟩
  · obtain ⟨v, hfile, hidle⟩ := ht.file
    refine ⟨v, hfile, fun hnone => ?_⟩
    exact (hidle fun j hj => hnone j ((hunder j).mpr hj)).imp_right (hF v)

omit [DecidableEq ι] in
/-- While `i` is the only thread under way, what `i` does describes the state. -/
theorem State.InTurn.of_only (honly : ∀ j, s.UnderWay j → j = i) (hi : s.UnderWay i)
    (hnumbered : s.published < s.created)
    (htemporary : ∀ n, s.temporary = some n → n < s.created ∧ n ≠ s.published)
    (hread : ∀ v, s.stage i = some (.read v) → s.temporary = none ∧ F v)
    (hopened : ∀ v n, s.stage i = some (.opened v n) →
      s.temporary = some n ∧ s.texts n = [] ∧ F v)
    (hwritten : s.stage i = some .written → ∃ n v, s.temporary = some n ∧ s.texts n = [v] ∧ F v)
    (hfile : ∃ v, s.file = [v]) : s.InTurn F where
  alone := fun j k hj hk => (honly j hj).trans (honly k hk).symm
  numbered := hnumbered
  temporary := htemporary
  read := by
    intro j v hj
    obtain rfl := honly j (.of_stage hj (by simp))
    exact hread v hj
  opened := by
    intro j v n hj
    obtain rfl := honly j (.of_stage hj (by simp))
    exact hopened v n hj
  written := by
    intro j hj
    obtain rfl := honly j (.of_stage hj (by simp))
    exact hwritten hj
  file := hfile.imp fun _ hv => ⟨hv, fun hnone => absurd hi (hnone i)⟩

theorem State.InTurn.read_at (ht : s.InTurn F) (hidle : ∀ j, ¬ s.UnderWay j) (hv : F' v) :
    (s.at i (some (.read v))).InTurn F' := by
  obtain ⟨w, hfile, hnone⟩ := ht.file
  have htemp : s.temporary = none := (hnone hidle).1
  refine .of_only (i := i) (fun j hj => ?_) (.of_stage State.at_stage_self (by simp)) ht.numbered
    ht.temporary ?_ ?_ ?_ ⟨w, hfile⟩
  · by_contra hij
    exact hidle j ((State.underWay_at_of_ne hij).mp hj)
  · intro u hu
    obtain rfl : v = u := by simpa using hu
    exact ⟨htemp, hv⟩
  · simp
  · simp

/-- The thread that is under way moves on, and stays under way. -/
theorem State.InTurn.only_at (ht : s.InTurn F) (hi : s.UnderWay i)
    (hj : (s.at i stage).UnderWay j) : j = i := by
  by_contra hij
  exact hij (ht.alone j i ((State.underWay_at_of_ne hij).mp hj) hi)

theorem State.InTurn.truncate (ht : s.InTurn F) (hi : s.stage i = some (.read v))
    (hF : ∀ v, F v → F' v) : (s.truncated.at i (some (.opened v s.target))).InTurn F' := by
  obtain ⟨htemp, hv⟩ := ht.read i v hi
  obtain ⟨w, hfile, -⟩ := ht.file
  have htarget : s.target = s.created := by simp [State.target, htemp]
  have hnumbered : s.published < s.created := ht.numbered
  have hne : s.target ≠ s.published := by omega
  have hcreated : (s.truncated.at i (some (.opened v s.target))).created = s.created + 1 := by
    simp [State.truncated, htemp]
  have hunder : s.UnderWay i := .of_stage hi (by simp)
  refine .of_only (i := i) (fun j hj => ht.only_at hunder hj)
    (.of_stage State.at_stage_self (by simp)) ?_ ?_ ?_ ?_ ?_ ⟨w, ?_⟩
  · rw [hcreated]
    exact hnumbered.trans (Nat.lt_succ_self _)
  · intro n hn
    obtain rfl : s.target = n := by simpa using hn
    exact ⟨by omega, hne⟩
  · simp
  · intro u n hu
    obtain ⟨rfl, rfl⟩ : v = u ∧ s.target = n := by simpa using hu
    exact ⟨rfl, by simp [State.truncated], hF v hv⟩
  · simp
  · simpa [State.file, State.truncated, hne.symm] using hfile

theorem State.InTurn.write (ht : s.InTurn F) (hi : s.stage i = some (.opened v n))
    (hF : ∀ v, F v → F' v) : ((s.wrote n v).at i (some .written)).InTurn F' := by
  obtain ⟨htemp, htexts, hv⟩ := ht.opened i v n hi
  obtain ⟨w, hfile, -⟩ := ht.file
  have hne : n ≠ s.published := (ht.temporary n htemp).2
  have hunder : s.UnderWay i := .of_stage hi (by simp)
  refine .of_only (i := i) (fun j hj => ht.only_at hunder hj)
    (.of_stage State.at_stage_self (by simp)) ht.numbered ht.temporary ?_ ?_ ?_ ⟨w, ?_⟩
  · simp
  · simp
  · exact fun _ => ⟨n, v, htemp, by simp [State.wrote, htexts], hF v hv⟩
  · simpa [State.file, State.wrote, hne.symm] using hfile

theorem State.InTurn.replace (ht : s.InTurn F) (hi : s.stage i = some .written)
    (hF : ∀ v, F v → F' v) : (s.replaced.at i none).InTurn F' := by
  obtain ⟨n, v, htemp, htexts, hv⟩ := ht.written i hi
  have hunder : s.UnderWay i := .of_stage hi (by simp)
  have hnone (j : ι) : ¬ (s.replaced.at i none).UnderWay j := by
    intro hj
    obtain rfl := ht.only_at hunder hj
    exact hj.1 State.at_stage_self
  refine ⟨fun j k hj => absurd hj (hnone j), ?_, by simp,
    fun j w hj => absurd (.of_stage hj (by simp)) (hnone j),
    fun j w n hj => absurd (.of_stage hj (by simp)) (hnone j),
    fun j hj => absurd (.of_stage hj (by simp)) (hnone j), v, ?_, fun _ => ⟨rfl, hF v hv⟩⟩
  · simpa [State.replaced, htemp] using (ht.temporary n htemp).1
  · simpa [State.file, State.replaced, htemp] using htexts

/-- One event, when publications do not overlap. What is true of the views stays true of them, and
is true of the view that a read finds. -/
theorem State.InTurn.step (ht : s.InTurn F) (hstep : Step P s e s') (hserial : e.Serial s)
    (hread : ∀ i, e = .read i → F' (P.view s.store))
    (hF : (∀ i, e ≠ .read i) → ∀ v, F v → F' v) : s'.InTurn F' := by
  obtain ⟨i, a, store, rfl, hi, -, rfl⟩ | ⟨i, rfl, -, rfl⟩ | ⟨i, v, rfl, hi, rfl⟩ |
    ⟨i, v, n, rfl, hi, rfl⟩ | ⟨i, rfl, hi, rfl⟩ := step_cases hstep
  · refine ht.commit hi ?_ (hF (by simp))
    split
    · exact .inr rfl
    · exact .inl rfl
  · exact ht.read_at hserial (hread i rfl)
  · exact ht.truncate hi (hF (by simp))
  · exact ht.write hi (hF (by simp))
  · exact ht.replace hi (hF (by simp))

end Moves

/-- When publications do not overlap, the published file always holds the view of one state. -/
theorem file_whole (hs₀ : s₀.Started P) (run : History.Run (Step P) s₀ h s)
    (hserial : History.Throughout (fun s e => e.Serial s) s₀ h) :
    ∃ v, s.file = [v] ∧ Seen P s₀ h v := by
  have ht : s.InTurn fun _ => True := by
    refine (run.throughout hserial).always (hs₀.inTurn trivial) ?_
    rintro s e s' ht ⟨hstep, hserial⟩
    exact ht.step hstep hserial (fun _ _ => trivial) fun _ _ _ => trivial
  obtain ⟨v, hfile, -⟩ := ht.file
  exact ⟨v, hfile, file_seen hs₀ run v (by simp [hfile])⟩

variable (P) in
/-- The view is the store's, or a thread has yet to read it. -/
def State.Fresh (s : State σ ι ν) (v : ν) : Prop :=
  v = P.view s.store ∨ ∃ i, s.stage i = some .owed

/-- A view stays fresh while a thread that does not owe one moves on. -/
theorem State.Fresh.at (hv : s.Fresh P v) (hi : s.stage i ≠ some .owed) :
    (s.at i stage).Fresh P v := by
  refine hv.imp_right fun ⟨j, hj⟩ => ⟨j, ?_⟩
  have hij : j ≠ i := by
    rintro rfl
    exact hi hj
  simpa [hij] using hj

theorem State.Fresh.commit {a : ε} {store : σ} (hv : s.Fresh P v) (hi : s.stage i = none)
    (hquiet : P.owes s.store a = false → P.view store = P.view s.store) :
    ({ s with store }.at i (if P.owes s.store a then some .owed else none)).Fresh P v := by
  cases howes : P.owes s.store a with
  | true => exact .inr ⟨i, by simp⟩
  | false =>
    have hkept : { s with store }.Fresh P v := by
      refine hv.imp_left fun hview => ?_
      rw [hview]
      exact (hquiet howes).symm
    exact hkept.at (by simp [hi])

/-- A view stays fresh in every event but a read. -/
theorem State.Fresh.step (hv : s.Fresh P v) (hstep : Step P s e s') (hread : ∀ i, e ≠ .read i)
    (hquiet : ∀ i a store, e = .commit i a → P.next s.store a = some store →
      P.owes s.store a = false → P.view store = P.view s.store) : s'.Fresh P v := by
  obtain ⟨i, a, store, rfl, hi, hstore, rfl⟩ | ⟨i, rfl, -, -⟩ | ⟨i, w, rfl, hi, rfl⟩ |
    ⟨i, w, n, rfl, hi, rfl⟩ | ⟨i, rfl, hi, rfl⟩ := step_cases hstep
  · exact hv.commit hi (hquiet i a store rfl hstore)
  · exact absurd rfl (hread i)
  · have hkept : s.truncated.Fresh P v := hv
    exact hkept.at (by simp [hi])
  · have hkept : (s.wrote n w).Fresh P v := hv
    exact hkept.at (by simp [hi])
  · have hkept : s.replaced.Fresh P v := hv
    exact hkept.at (by simp [hi])

theorem step_store (hstep : Step P s e s') :
    (∃ i a, e = .commit i a ∧ P.next s.store a = some s'.store) ∨ s'.store = s.store := by
  obtain ⟨i, a, store, rfl, -, hstore, rfl⟩ | ⟨i, -, -, rfl⟩ | ⟨i, v, -, -, rfl⟩ |
    ⟨i, v, n, -, -, rfl⟩ | ⟨i, -, -, rfl⟩ := step_cases hstep
  · exact .inl ⟨i, a, rfl, hstore⟩
  all_goals exact .inr rfl

/-- When publications do not overlap, and a commit that owes none leaves the view as it is, the file
is the view of the store as soon as nothing is left to publish. `I` is what the commits keep. -/
theorem file_settled (hs₀ : s₀.Started P) {I : σ → Prop} {C : σ → ε → Prop} (base : I s₀.store)
    (keep : ∀ store a store', I store → C store a → P.next store a = some store' →
      I store' ∧ (P.owes store a = false → P.view store' = P.view store))
    (run : History.Run (Step P) s₀ h s)
    (hC : History.Throughout (fun s e => e.Serial s ∧ e.Meets C s) s₀ h) (hs : s.Settled) :
    s.file = [P.view s.store] := by
  have hinv : I s.store ∧ s.InTurn (s.Fresh P) := by
    refine (run.throughout hC).always (P := fun s => I s.store ∧ s.InTurn (s.Fresh P))
      ⟨base, hs₀.inTurn (.inl rfl)⟩ ?_
    rintro s e s' ⟨hI, ht⟩ ⟨hstep, hserial, hmeets⟩
    refine ⟨?_, ht.step hstep hserial ?_ fun hread v hv => hv.step hstep hread ?_⟩
    · obtain ⟨i, a, rfl, hstore⟩ | hstore := step_store hstep
      · exact (keep s.store a s'.store hI hmeets hstore).1
      · rwa [hstore]
    · rintro i rfl
      obtain ⟨_, _, hcommit, -⟩ | hstore := step_store hstep
      · cases hcommit
      · exact .inl (congrArg P.view hstore.symm)
    · rintro i a store rfl hstore
      exact (keep s.store a store hI hmeets hstore).2
  obtain ⟨v, hfile, hidle⟩ := hinv.2.file
  have hfresh : s.Fresh P v := (hidle fun i hi => hi.1 (hs i)).2
  obtain rfl | ⟨i, hi⟩ := hfresh
  · exact hfile
  · simp [hs i] at hi

end Publication
