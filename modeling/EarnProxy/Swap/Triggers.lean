import EarnProxy.Distribution

/-!
# The triggers of `proxies`

`provider_egress_user_conflict_insert` and `provider_egress_user_conflict_update` write the flags of
the assignments at the exit address of a row of `proxies`, from the stored texts. The reconciliation
writes the same flags from normalized addresses, and looks at the dashboard as well.
-/

namespace EarnProxy.Swap

/-- A write to one row of `proxies` on which a trigger waits. -/
inductive UserWrite where
  | insert (row : UserEgress)
  /-- `UPDATE OF exit_ip, egress_attestation_source, archived_at`. -/
  | update (row : UserEgress)
  deriving DecidableEq, Repr

/-- `proxies` after the write. -/
def UserWrite.apply (users : List UserEgress) : UserWrite → List UserEgress
  | .insert row => users ++ [row]
  | .update row => Table.update (fun u => u.id = row.id) (fun _ => row) users

/-- `EXISTS (SELECT 1 FROM proxies p …)`. -/
def Taken (users : List UserEgress) (exitIp : Option String) : Prop :=
  ∃ u ∈ users, u.Trusted ∧ u.exitIp = exitIp

instance (users : List UserEgress) (exitIp : Option String) : Decidable (Taken users exitIp) :=
  inferInstanceAs (Decidable (∃ u ∈ users, _))

/-- `SELECT MIN(pa2.id)`. -/
def Db.firstAt (db : Db) (exitIp : Option String) : Option Nat :=
  ((db.assignments.filter fun b => decide (b.missingAt = none ∧ b.exitIp = exitIp)).map
    Assignment.id).min?

/-- `qualification='allow' AND live_status='live' AND provider_eligible=1`. -/
def Assignment.Allowed (a : Assignment) : Prop :=
  a.qualification = "allow" ∧ a.liveStatus = "live" ∧ a.providerEligible = true

instance (a : Assignment) : Decidable a.Allowed := inferInstanceAs (Decidable (_ ∧ _))

/-- `provider_egress_user_conflict_insert`. -/
def conflictInsert (row : UserEgress) (now : Timestamp) (db : Db) : Db :=
  if row.archivedAt = none ∧ row.exitIp ≠ none ∧ row.egressAttestationSource ≠ none then
    db.updateAssignments (fun a => a.missingAt = none ∧ a.exitIp = row.exitIp) fun a =>
      { a with duplicateEgress := true, distributionEnabled := false, updatedAt := now }
  else db

/-- The row that `provider_egress_user_conflict_update` leaves. -/
def Assignment.conflicted (users : List UserEgress) (db : Db) (now : Timestamp) (a : Assignment) :
    Assignment :=
  let first := (db.firstAt a.exitIp).getD a.id
  { a with
    duplicateEgress := decide (Taken users a.exitIp ∨ a.id ≠ first)
    distributionEnabled := decide (a.Allowed ∧ ¬ Taken users a.exitIp ∧ a.id = first)
    updatedAt := now }

/-- `provider_egress_user_conflict_update`, when `proxies` holds `users`. -/
def conflictUpdate (users : List UserEgress) (old row : UserEgress) (now : Timestamp) (db : Db) :
    Db :=
  db.updateAssignments
    (fun a => a.missingAt = none ∧ a.exitIp ≠ none ∧
      (a.exitIp = row.exitIp ∨ a.exitIp = old.exitIp))
    fun a => a.conflicted users db now

/-- The write with its trigger. -/
def UserWrite.fire (users : List UserEgress) (w : UserWrite) (now : Timestamp) (db : Db) : Db :=
  match w with
  | .insert row => conflictInsert row now db
  | .update row =>
    match Table.lookup UserEgress.id row.id users with
    | none => db
    | some old => conflictUpdate (w.apply users) old row now db

/-- The rows that a trigger writes. -/
def UserWrite.Touches (users : List UserEgress) (w : UserWrite) (a : Assignment) : Prop :=
  a.missingAt = none ∧ a.exitIp ≠ none ∧
  match w with
  | .insert row => row.Trusted ∧ a.exitIp = row.exitIp
  | .update row => ∃ old ∈ Table.lookup UserEgress.id row.id users,
      a.exitIp = row.exitIp ∨ a.exitIp = old.exitIp

instance (users : List UserEgress) (w : UserWrite) (a : Assignment) :
    Decidable (w.Touches users a) := by
  unfold UserWrite.Touches
  cases w <;> infer_instance

/-! ## When they agree -/

/-- The exit text of the row is that of a contributor, or of an earlier live row. -/
def Assignment.Contested (users : List UserEgress) (db : Db) (a : Assignment) : Prop :=
  Taken users a.exitIp ∨
    ∃ b ∈ db.assignments, b.missingAt = none ∧ b.exitIp = a.exitIp ∧ b.id < a.id

instance (users : List UserEgress) (db : Db) (a : Assignment) : Decidable (a.Contested users db) :=
  inferInstanceAs (Decidable (_ ∨ _))

/-- The exit address of the row is the text of a contributor, or the address of a live row that the
query returns before it. -/
def Assignment.AddressContested (isGlobal : IpAddress → Bool) (users : List UserEgress) (db : Db)
    (order : List Nat) (a : Assignment) : Prop :=
  a.address isGlobal ≠ "" ∧ (a.address isGlobal ∈ userIps isGlobal users ∨
    ∃ b ∈ db.assignments, b.missingAt = none ∧ b.address isGlobal = a.address isGlobal ∧
      [b.id, a.id].Sublist order)

instance (isGlobal : IpAddress → Bool) (users : List UserEgress) (db : Db) (order : List Nat)
    (a : Assignment) : Decidable (a.AddressContested isGlobal users db order) :=
  inferInstanceAs (Decidable (_ ∧ _))

/-- The two rules come to one result on the row. -/
structure Assignment.RulesAgree (isGlobal : IpAddress → Bool) (users : List UserEgress) (db : Db)
    (order : List Nat) (now : Timestamp) (a : Assignment) : Prop where
  contested : a.Contested users db ↔ a.AddressContested isGlobal users db order
  /-- The evidence of the dashboard is fresh. -/
  ready : ¬ a.Contested users db → a.Allowed → dashboardReady db a now
  /-- The statuses are spelled in lower case. -/
  spelled : ¬ a.Contested users db → a.Distributes db now → a.Allowed

section Triggers

variable {isGlobal : IpAddress → Bool} {users : List UserEgress} {db : Db} {w : UserWrite}
  {now : Timestamp} {a : Assignment} {rows : List Assignment}

/-- The smallest id at the address is smaller than that of the row. -/
theorem ne_firstAt (ha : a ∈ db.assignments) (hmissing : a.missingAt = none) :
    a.id ≠ (db.firstAt a.exitIp).getD a.id ↔
      ∃ b ∈ db.assignments, b.missingAt = none ∧ b.exitIp = a.exitIp ∧ b.id < a.id := by
  have hmem (i : Nat) : i ∈ (db.assignments.filter fun b =>
      decide (b.missingAt = none ∧ b.exitIp = a.exitIp)).map Assignment.id ↔
      ∃ b ∈ db.assignments, b.missingAt = none ∧ b.exitIp = a.exitIp ∧ b.id = i := by
    simp [and_assoc]
  have hown := (hmem a.id).mpr ⟨a, ha, hmissing, rfl, rfl⟩
  obtain ⟨i, hi⟩ := Option.isSome_iff_exists.mp (List.isSome_min?_of_mem hown)
  obtain ⟨hfirst, hle⟩ := List.min?_eq_some_iff.mp hi
  unfold Db.firstAt
  rw [hi, Option.getD_some]
  constructor
  · intro hne
    obtain ⟨b, hb, hbmissing, hexit, rfl⟩ := (hmem i).mp hfirst
    exact ⟨b, hb, hbmissing, hexit, lt_of_le_of_ne (hle _ hown) (Ne.symm hne)⟩
  · rintro ⟨b, hb, hbmissing, hexit, hlt⟩ rfl
    have := hle b.id ((hmem b.id).mpr ⟨b, hb, hbmissing, hexit, rfl⟩)
    omega

/-- The flags that a trigger leaves. -/
theorem conflicted_flags (users : List UserEgress) (now : Timestamp) (ha : a ∈ db.assignments)
    (hmissing : a.missingAt = none) :
    ((a.conflicted users db now).duplicateEgress = true ↔ a.Contested users db) ∧
    ((a.conflicted users db now).distributionEnabled = true ↔
      ¬ a.Contested users db ∧ a.Allowed) := by
  have hfirst := ne_firstAt ha hmissing
  unfold Assignment.Contested
  rw [← hfirst]
  constructor
  · exact decide_eq_true_iff
  · refine decide_eq_true_iff.trans ?_
    grind

/-- Both triggers write the rows that they touch by one rule. -/
theorem fire_eq : w.fire users now db =
    db.updateAssignments (fun a => w.Touches users a) fun a =>
      a.conflicted (w.apply users) db now := by
  have hrows : (w.fire users now db).assignments =
      Table.update (fun a => w.Touches users a) (fun a => a.conflicted (w.apply users) db now)
        db.assignments := by
    cases w with
    | insert row =>
      unfold UserWrite.fire conflictInsert
      dsimp only
      split
      · rename_i htrusted
        refine List.map_congr_left fun a _ => ?_
        -- the address is taken by the row itself
        by_cases hexit : a.exitIp = row.exitIp
        · have htaken : Taken (users ++ [row]) row.exitIp :=
            ⟨row, by simp, ⟨htrusted.1, htrusted.2.2⟩, rfl⟩
          have hsome : a.exitIp ≠ none := hexit ▸ htrusted.2.1
          by_cases hmissing : a.missingAt = none <;>
            simp [UserWrite.Touches, UserEgress.Trusted, UserWrite.apply, Assignment.conflicted, *]
        · simp [UserWrite.Touches, hexit]
      · rename_i huntrusted
        refine (Table.update_eq_self fun a _ htouches => huntrusted ?_).symm
        obtain ⟨-, hsome, htrusted, hexit⟩ := htouches
        exact ⟨htrusted.1, hexit ▸ hsome, htrusted.2⟩
    | update row =>
      unfold UserWrite.fire
      dsimp only
      split
      · rename_i hlookup
        refine (Table.update_eq_self fun a _ htouches => ?_).symm
        obtain ⟨-, -, old, hold, -⟩ := htouches
        rw [hlookup] at hold
        cases hold
      · rename_i old hlookup
        refine Table.update_congr (fun a => ?_) db.assignments
        simp [UserWrite.Touches, hlookup]
  have hother : w.fire users now db =
      { db with assignments := (w.fire users now db).assignments } := by
    unfold UserWrite.fire conflictInsert conflictUpdate
    split
    · split <;> rfl
    · split <;> rfl
  rw [hother, hrows]
  rfl

end Triggers

/-! ## The reconciliation -/

section Reconcile

variable {isGlobal : IpAddress → Bool} {users : List UserEgress} {taken : List String} {db : Db}
  {now : Timestamp} {a : Assignment} {rows : List Assignment}

theorem duplicateIds_subset {i : Nat} (h : i ∈ duplicateIds isGlobal taken rows) :
    i ∈ rows.map Assignment.id := by
  induction rows with
  | nil => exact h
  | cons r rows ih =>
    unfold duplicateIds at h
    rw [List.map_cons, List.mem_cons]
    rcases List.mem_append.mp h with h | h
    · have hown : i = r.id ∨ i ∈ rows.map Assignment.id := by
        split at h
        · cases h
        · split at h <;> simp at h ⊢ <;> grind
      exact hown
    · exact .inr (ih h)

/-- A later row is in the group of `r` if it has its address. -/
theorem mem_later (isGlobal : IpAddress → Bool) (r : Assignment)
    (hkeys : Table.Keyed Assignment.id rows) (ha : a ∈ rows) :
    a.id ∈ (rows.filter fun b => decide (b.address isGlobal = r.address isGlobal)).map
      Assignment.id ↔ a.address isGlobal = r.address isGlobal := by
  constructor
  · intro h
    obtain ⟨b, hb, hid⟩ := List.mem_map.mp h
    obtain ⟨hmem, haddress⟩ := List.mem_filter.mp hb
    obtain rfl := hkeys.eq hmem ha hid
    exact of_decide_eq_true haddress
  · intro h
    exact List.mem_map_of_mem (List.mem_filter.mpr ⟨ha, decide_eq_true h⟩)

/-- The ids of a group after its first one, or all of them. -/
theorem mem_duplicateIds (isGlobal : IpAddress → Bool) (taken : List String)
    (hkeys : Table.Keyed Assignment.id rows) (ha : a ∈ rows) :
    a.id ∈ duplicateIds isGlobal taken rows ↔
      a.address isGlobal ≠ "" ∧ (a.address isGlobal ∈ taken ∨
        ∃ b ∈ rows, b.address isGlobal = a.address isGlobal ∧
          [b.id, a.id].Sublist (rows.map Assignment.id)) := by
  induction rows with
  | nil => cases ha
  | cons r rows ih =>
    obtain ⟨hfresh, htail⟩ := List.nodup_cons.mp hkeys
    unfold duplicateIds
    rw [List.mem_append, List.map_cons]
    rcases List.mem_cons.mp ha with rfl | ha
    · -- the first row is a duplicate only of a contributor
      have hrest : a.id ∉ duplicateIds isGlobal taken rows :=
        fun h => hfresh (duplicateIds_subset h)
      have hlater : a.id ∉ (rows.filter fun b =>
          decide (b.address isGlobal = a.address isGlobal)).map Assignment.id := by
        intro h
        obtain ⟨b, hb, hid⟩ := List.mem_map.mp h
        exact hfresh (List.mem_map.mpr ⟨b, List.mem_of_mem_filter hb, hid⟩)
      have hbefore (b : Assignment) :
          ¬ [b.id, a.id].Sublist (a.id :: rows.map Assignment.id) := by
        intro h
        rcases List.cons_sublist_cons'.mp h with h | ⟨-, h⟩
        · exact hfresh (h.subset (by simp))
        · exact hfresh (List.singleton_sublist.mp h)
      simp only [hrest, or_false, hbefore, and_false, exists_false]
      split
      · simp [*]
      · split <;> simp_all
    · have hne : a.id ≠ r.id := fun h => hfresh (List.mem_map.mpr ⟨a, ha, h⟩)
      have hlater := mem_later isGlobal r htail ha
      have hgroup : a.id ∈ (if r.address isGlobal = "" then []
          else if r.address isGlobal ∈ taken then r.id :: (rows.filter fun b =>
            decide (b.address isGlobal = r.address isGlobal)).map Assignment.id
          else (rows.filter fun b =>
            decide (b.address isGlobal = r.address isGlobal)).map Assignment.id) ↔
          r.address isGlobal ≠ "" ∧ a.address isGlobal = r.address isGlobal := by
        split
        · simp [*]
        · split
          · rw [List.mem_cons, hlater, or_iff_right hne]
            simp [*]
          · rw [hlater]
            simp [*]
      have hown : [a.id].Sublist (rows.map Assignment.id) :=
        List.singleton_sublist.mpr (List.mem_map_of_mem ha)
      have hbefore (b : Assignment) : [b.id, a.id].Sublist (r.id :: rows.map Assignment.id) ↔
          [b.id, a.id].Sublist (rows.map Assignment.id) ∨ b.id = r.id := by
        rw [List.cons_sublist_cons', and_iff_left hown]
      rw [ih htail ha]
      simp only [hbefore]
      constructor
      · rintro (h | ⟨hsome, h⟩)
        · obtain ⟨hsome, haddress⟩ := hgroup.mp h
          rw [haddress]
          exact ⟨hsome, .inr ⟨r, List.mem_cons_self, rfl, .inr rfl⟩⟩
        · refine ⟨hsome, h.imp_right ?_⟩
          rintro ⟨b, hb, haddress, hsub⟩
          exact ⟨b, List.mem_cons_of_mem _ hb, haddress, .inl hsub⟩
      · rintro ⟨hsome, h | ⟨b, hb, haddress, hsub⟩⟩
        · exact .inr ⟨hsome, .inl h⟩
        · rcases List.mem_cons.mp hb with rfl | hb
          · rw [← haddress] at hsome
            exact .inl (hgroup.mpr ⟨hsome, haddress.symm⟩)
          · have hother : b.id ≠ r.id := fun h => hfresh (List.mem_map.mpr ⟨b, hb, h⟩)
            exact .inr ⟨hsome, .inr ⟨b, hb, haddress, hsub.resolve_right hother⟩⟩

/-- What the `UPDATE` statements of a reconciliation do to one row. -/
def Flags.stamp (a : Assignment) (f : Flags) : Assignment :=
  if a.id = f.id ∧ (a.duplicateEgress ≠ f.duplicate ∨ a.distributionEnabled ≠ f.distribution) then
    { a with duplicateEgress := f.duplicate, distributionEnabled := f.distribution }
  else a

theorem Flags.stamp_id (flags : List Flags) : ∀ a : Assignment,
    (flags.foldl Flags.stamp a).id = a.id := by
  induction flags with
  | nil => exact fun _ => rfl
  | cons f flags ih =>
    intro a
    rw [List.foldl_cons, ih]
    unfold Flags.stamp
    split <;> rfl

theorem writeFlags_assignments (flags : List Flags) : ∀ db : Db,
    (flags.foldl writeFlags db).assignments =
      db.assignments.map fun a => flags.foldl Flags.stamp a := by
  induction flags with
  | nil => simp
  | cons f flags ih =>
    intro db
    rw [List.foldl_cons, ih]
    exact List.map_map

theorem foldl_stamp_of_other {flags : List Flags} (h : ∀ f ∈ flags, f.id ≠ a.id) :
    flags.foldl Flags.stamp a = a := by
  induction flags with
  | nil => rfl
  | cons f flags ih =>
    have hother : Flags.stamp a f = a := if_neg fun hw => h f (by simp) hw.1.symm
    rw [List.foldl_cons, hother]
    exact ih fun g hg => h g (List.mem_cons_of_mem _ hg)

/-- The row is written by the flags with its id. -/
theorem foldl_stamp {flags : List Flags} (hkeys : Table.Keyed Flags.id flags) {f : Flags}
    (hf : f ∈ flags) (hid : f.id = a.id) : flags.foldl Flags.stamp a =
      { a with duplicateEgress := f.duplicate, distributionEnabled := f.distribution } := by
  induction flags with
  | nil => cases hf
  | cons g flags ih =>
    obtain ⟨hfresh, htail⟩ := List.nodup_cons.mp hkeys
    rw [List.foldl_cons]
    rcases List.mem_cons.mp hf with rfl | hf
    · have hstamp : Flags.stamp a f =
          { a with duplicateEgress := f.duplicate, distributionEnabled := f.distribution } := by
        unfold Flags.stamp
        split
        · rfl
        · cases a
          grind
      rw [hstamp]
      refine foldl_stamp_of_other fun g hg hgid => hfresh (List.mem_map.mpr ⟨g, hg, ?_⟩)
      exact hgid.trans hid.symm
    · have hother : g.id ≠ a.id := fun h =>
        hfresh (List.mem_map.mpr ⟨f, hf, hid.trans h.symm⟩)
      have hstamp : Flags.stamp a g = a := if_neg fun hw => hother hw.1.symm
      rw [hstamp]
      exact ih htail hf

/-- A row is left as it is if it has the flags already. -/
theorem mem_writeFlags {flags : List Flags} (hrows : Table.Keyed Assignment.id db.assignments)
    (hkeys : Table.Keyed Flags.id flags) (ha : a ∈ db.assignments) {f : Flags} (hf : f ∈ flags)
    (hid : f.id = a.id) : a ∈ (flags.foldl writeFlags db).assignments ↔
      a.duplicateEgress = f.duplicate ∧ a.distributionEnabled = f.distribution := by
  rw [writeFlags_assignments]
  have hstamp := foldl_stamp hkeys hf hid
  constructor
  · intro h
    obtain ⟨b, hb, heq⟩ := List.mem_map.mp h
    have hsame : b.id = a.id := by rw [← heq, Flags.stamp_id]
    obtain rfl := hrows.eq hb ha hsame
    rw [hstamp] at heq
    exact ⟨(congrArg Assignment.duplicateEgress heq).symm,
      (congrArg Assignment.distributionEnabled heq).symm⟩
  · rintro ⟨hduplicate, hdistribution⟩
    refine List.mem_map.mpr ⟨a, ha, ?_⟩
    rw [hstamp, ← hduplicate, ← hdistribution]

end Reconcile

/-! ## The two rules -/

section Agreement

variable {isGlobal : IpAddress → Bool} {users : List UserEgress} {db : Db} {w : UserWrite}
  {now : Timestamp} {rows : List Assignment}

/-- The flags that a reconciliation computes for a row. -/
theorem mem_reconcileFlags (isGlobal : IpAddress → Bool) (users : List UserEgress) (db : Db)
    (current : Timestamp) {a : Assignment} {f : Flags} (hkeys : Table.Keyed Assignment.id rows)
    (ha : a ∈ rows) : f ∈ reconcileFlags isGlobal users db rows current ∧ f.id = a.id ↔
      f = { id := a.id
            duplicate := decide (a.id ∈ duplicateIds isGlobal (userIps isGlobal users) rows)
            distribution := decide (a.id ∉ duplicateIds isGlobal (userIps isGlobal users) rows ∧
              a.Distributes db current) } := by
  unfold reconcileFlags
  constructor
  · rintro ⟨hf, hid⟩
    obtain ⟨b, hb, rfl⟩ := List.mem_map.mp hf
    obtain rfl := hkeys.eq hb ha hid
    rfl
  · rintro rfl
    exact ⟨List.mem_map.mpr ⟨a, ha, rfl⟩, rfl⟩

theorem distributes_iff (db : Db) (current : Timestamp) {a : Assignment} (hspelled : a.Allowed) :
    a.Distributes db current ↔ dashboardReady db a current := by
  obtain ⟨hqualification, hlive, heligible⟩ := hspelled
  have hlower : Text.lower "live" = "live" ∧ Text.lower "allow" = "allow" := by decide +kernel
  unfold Assignment.Distributes
  rw [hqualification, hlive]
  simp [hlower, heligible]

theorem rulesAgree_iff {a : Assignment} {order : List Nat} {current : Timestamp} :
    a.RulesAgree isGlobal users db order current ↔
      (a.Contested users db ↔ a.AddressContested isGlobal users db order) ∧
      (¬ a.Contested users db ∧ a.Allowed ↔
        ¬ a.AddressContested isGlobal users db order ∧ a.Distributes db current) := by
  have hready (hspelled : a.Allowed) := distributes_iff db current hspelled
  constructor
  · rintro ⟨hcontested, hfresh, hspelled⟩
    refine ⟨hcontested, ?_⟩
    rw [← hcontested]
    grind
  · rintro ⟨hcontested, hdistribution⟩
    rw [← hcontested] at hdistribution
    refine ⟨hcontested, ?_, ?_⟩ <;> grind

end Agreement

section Fire

variable {isGlobal : IpAddress → Bool} {users : List UserEgress} {db : Db} {w : UserWrite}
  {now current : Timestamp} {rows : List Assignment} {a : Assignment}

/-- The row after the write. -/
def UserWrite.leaves (users : List UserEgress) (w : UserWrite) (now : Timestamp) (db : Db)
    (a : Assignment) : Assignment :=
  if w.Touches users a then a.conflicted (w.apply users) db now else a

theorem fire_assignments :
    (w.fire users now db).assignments = db.assignments.map (w.leaves users now db) := by
  rw [fire_eq]
  rfl

/-- What the trigger leaves alone. -/
theorem leaves_same (users : List UserEgress) (w : UserWrite) (now : Timestamp) (db : Db)
    (a : Assignment) : (w.leaves users now db a).id = a.id ∧
    (w.leaves users now db a).missingAt = a.missingAt ∧
    (w.leaves users now db a).exitIp = a.exitIp := by
  unfold UserWrite.leaves
  split <;> exact ⟨rfl, rfl, rfl⟩

theorem leaves_distributes : (w.leaves users now db a).Distributes (w.fire users now db) current ↔
    a.Distributes db current := by
  rw [fire_eq]
  unfold UserWrite.leaves
  split <;> exact Iff.rfl

theorem touches_leaves : w.Touches users (w.leaves users now db a) ↔ w.Touches users a := by
  obtain ⟨-, hmissing, hexit⟩ := leaves_same users w now db a
  unfold UserWrite.Touches
  rw [hmissing, hexit]

theorem fire_keyed (hkeys : Table.Keyed Assignment.id db.assignments) :
    Table.Keyed Assignment.id (w.fire users now db).assignments := by
  rw [fire_assignments]
  exact hkeys.map fun a _ => (leaves_same users w now db a).1

/-- The live rows after the write, in the order of the query. -/
theorem mem_rows_iff (hrows : rows.Perm ((w.fire users now db).assignments.filter fun a =>
      decide (a.missingAt = none))) {b : Assignment} :
    b ∈ rows ↔ ∃ a ∈ db.assignments, a.missingAt = none ∧ w.leaves users now db a = b := by
  rw [hrows.mem_iff, List.mem_filter, fire_assignments, List.mem_map, decide_eq_true_iff]
  constructor
  · rintro ⟨⟨a, ha, rfl⟩, hmissing⟩
    exact ⟨a, ha, (leaves_same users w now db a).2.1 ▸ hmissing, rfl⟩
  · rintro ⟨a, ha, hmissing, rfl⟩
    exact ⟨⟨a, ha, rfl⟩, (leaves_same users w now db a).2.1.trans hmissing⟩

/-- The duplicates that a reconciliation finds after the write. -/
theorem mem_duplicateIds_leaves (isGlobal : IpAddress → Bool)
    (hkeys : Table.Keyed Assignment.id rows)
    (hrows : rows.Perm ((w.fire users now db).assignments.filter fun a =>
      decide (a.missingAt = none))) (ha : a ∈ db.assignments) (hmissing : a.missingAt = none) :
    a.id ∈ duplicateIds isGlobal (userIps isGlobal (w.apply users)) rows ↔
      a.AddressContested isGlobal (w.apply users) db (rows.map Assignment.id) := by
  have haddress (b : Assignment) : (w.leaves users now db b).id = b.id ∧
      (w.leaves users now db b).address isGlobal = b.address isGlobal := by
    obtain ⟨hid, -, hexit⟩ := leaves_same users w now db b
    exact ⟨hid, by unfold Assignment.address; rw [hexit]⟩
  have hmem := (mem_rows_iff hrows).mpr ⟨a, ha, hmissing, rfl⟩
  have hrule := mem_duplicateIds isGlobal (userIps isGlobal (w.apply users)) hkeys hmem
  rw [(haddress a).1, (haddress a).2] at hrule
  rw [hrule]
  refine and_congr_right fun _ => or_congr_right ⟨?_, ?_⟩
  · rintro ⟨b', hb', hsame, hbefore⟩
    obtain ⟨b, hb, hbmissing, rfl⟩ := (mem_rows_iff hrows).mp hb'
    rw [(haddress b).1] at hbefore
    exact ⟨b, hb, hbmissing, (haddress b).2.symm.trans hsame, hbefore⟩
  · rintro ⟨b, hb, hbmissing, hsame, hbefore⟩
    refine ⟨_, (mem_rows_iff hrows).mpr ⟨b, hb, hbmissing, rfl⟩, (haddress b).2.trans hsame, ?_⟩
    rwa [(haddress b).1]

/-- A touched row has the flags that a reconciliation computes if the rules agree on it. -/
theorem leaves_agrees_iff (hkeys : Table.Keyed Assignment.id rows)
    (hrows : rows.Perm ((w.fire users now db).assignments.filter fun a =>
      decide (a.missingAt = none))) (ha : a ∈ db.assignments) (htouches : w.Touches users a)
    {f : Flags}
    (hf : f ∈ reconcileFlags isGlobal (w.apply users) (w.fire users now db) rows current)
    (hid : f.id = a.id) :
    (w.leaves users now db a).duplicateEgress = f.duplicate ∧
      (w.leaves users now db a).distributionEnabled = f.distribution ↔
    a.RulesAgree isGlobal (w.apply users) db (rows.map Assignment.id) current := by
  have hmissing := htouches.1
  have hsameId := (leaves_same users w now db a).1
  have hmem := (mem_rows_iff hrows).mpr ⟨a, ha, hmissing, rfl⟩
  have hduplicates := mem_duplicateIds_leaves isGlobal hkeys hrows ha hmissing
  obtain ⟨hduplicate, hdistribution⟩ :=
    conflicted_flags (w.apply users) now ha hmissing
  rw [(mem_reconcileFlags _ _ _ _ hkeys hmem).mp ⟨hf, hid.trans hsameId.symm⟩, rulesAgree_iff,
    hsameId]
  refine and_congr ?_ ?_
  · rw [Bool.eq_iff_iff, decide_eq_true_iff, hduplicates]
    unfold UserWrite.leaves
    rw [if_pos htouches, hduplicate]
  · rw [Bool.eq_iff_iff, decide_eq_true_iff, hduplicates, leaves_distributes]
    unfold UserWrite.leaves
    rw [if_pos htouches, hdistribution]

/-- After a write to `proxies`, the touched rows have the flags that a reconciliation computes, and
a reconciliation leaves them as they are, just when the two rules agree on each of them. -/
theorem triggers_agree_iff (hkeys : Table.Keyed Assignment.id db.assignments)
    (hrows : rows.Perm ((w.fire users now db).assignments.filter fun a =>
      decide (a.missingAt = none))) :
    ((∀ a ∈ (w.fire users now db).assignments, w.Touches users a →
        ∀ f ∈ reconcileFlags isGlobal (w.apply users) (w.fire users now db) rows current,
          f.id = a.id → a.duplicateEgress = f.duplicate ∧ a.distributionEnabled = f.distribution) ↔
      ∀ a ∈ db.assignments, w.Touches users a →
        a.RulesAgree isGlobal (w.apply users) db (rows.map Assignment.id) current) ∧
    ((∀ a ∈ (w.fire users now db).assignments, w.Touches users a →
        a ∈ (reconcileDuplicates isGlobal (w.apply users) (w.fire users now db) rows
          current).assignments) ↔
      ∀ a ∈ db.assignments, w.Touches users a →
        a.RulesAgree isGlobal (w.apply users) db (rows.map Assignment.id) current) := by
  have hfired : Table.Keyed Assignment.id (w.fire users now db).assignments := fire_keyed hkeys
  have hrowsKeyed : Table.Keyed Assignment.id rows :=
    ((hrows.map Assignment.id).nodup_iff).mpr (hfired.filter _)
  have hflagsKeyed : Table.Keyed Flags.id
      (reconcileFlags isGlobal (w.apply users) (w.fire users now db) rows current) := by
    unfold Table.Keyed reconcileFlags
    rw [List.map_map]
    exact hrowsKeyed
  -- each touched row has flags of its own
  have hown (a : Assignment) (ha : a ∈ db.assignments) (htouches : w.Touches users a) :
      ∃ f ∈ reconcileFlags isGlobal (w.apply users) (w.fire users now db) rows current,
        f.id = a.id := by
    have hmem := (mem_rows_iff hrows).mpr ⟨a, ha, htouches.1, rfl⟩
    obtain ⟨hf, hid⟩ := (mem_reconcileFlags isGlobal (w.apply users) (w.fire users now db)
      current hrowsKeyed hmem).mpr rfl
    exact ⟨_, hf, hid.trans (leaves_same users w now db a).1⟩
  have hall {P : Assignment → Prop} : (∀ a ∈ (w.fire users now db).assignments,
      w.Touches users a → P a) ↔
      ∀ a ∈ db.assignments, w.Touches users a → P (w.leaves users now db a) := by
    rw [fire_assignments]
    simp only [List.forall_mem_map, touches_leaves]
  rw [hall, hall]
  refine ⟨forall₃_congr fun a ha htouches => ?_, forall₃_congr fun a ha htouches => ?_⟩
  · obtain ⟨f, hf, hid⟩ := hown a ha htouches
    have hid' := (leaves_same users w now db a).1
    rw [hid']
    constructor
    · intro h
      exact (leaves_agrees_iff hrowsKeyed hrows ha htouches hf hid).mp (h f hf hid)
    · intro h g hg hgid
      exact (leaves_agrees_iff hrowsKeyed hrows ha htouches hg hgid).mpr h
  · obtain ⟨f, hf, hid⟩ := hown a ha htouches
    have hmem : w.leaves users now db a ∈ (w.fire users now db).assignments := by
      rw [fire_assignments]
      exact List.mem_map_of_mem ha
    have hid' := (leaves_same users w now db a).1
    rw [← leaves_agrees_iff hrowsKeyed hrows ha htouches hf hid]
    exact mem_writeFlags hfired hflagsKeyed hmem hf (hid.trans hid'.symm)

end Fire

/-! ## Addresses in their normal form -/

/-- The live rows hold addresses and statuses as the services write them. -/
structure Db.Plain (isGlobal : IpAddress → Bool) (db : Db) : Prop where
  exitIp : ∀ a ∈ db.assignments, a.missingAt = none →
    ∀ t ∈ a.exitIp, t ≠ "" ∧ normalizeExitIp isGlobal t = t
  spelled : ∀ a ∈ db.assignments, a.missingAt = none →
    Text.lower a.liveStatus = a.liveStatus ∧ Text.lower a.qualification = a.qualification

theorem strip_eq_empty {t : String} (h : Text.trimBlanks t = "") : Text.strip t = "" := by
  have hblank : ∀ c ∈ t.toList, Text.isSpace c = true := by
    have hnil : ((t.toList.dropWhile (· = ' ')).reverse.dropWhile (· = ' ')) = [] := by
      simpa [Text.trimBlanks] using h
    have hall : t.toList.dropWhile (· = ' ') = [] := by
      by_contra hne
      have hhead := List.head_dropWhile_not (fun c => decide (c = ' ')) hne
      have hblanks := List.dropWhile_eq_nil_iff.mp hnil _
        (List.mem_reverse.mpr (List.head_mem hne))
      exact absurd hblanks (by simpa using hhead)
    intro c hc
    have hc' : c = ' ' := by simpa using List.dropWhile_eq_nil_iff.mp hall c hc
    subst hc'
    decide
  have hdrop : t.toList.dropWhile Text.isSpace = [] := List.dropWhile_eq_nil_iff.mpr hblank
  simp [Text.strip, Text.stripChars, hdrop]

section Plain

variable {isGlobal : IpAddress → Bool} {users : List UserEgress} {db : Db} {current : Timestamp}
  {order : List Nat} {a : Assignment}

/-- An address in its normal form is one of the contributors if a trusted row has the text. -/
theorem mem_userIps_iff {t : String} (hsome : t ≠ "") (hnormal : normalizeExitIp isGlobal t = t) :
    t ∈ userIps isGlobal users ↔ Taken users (some t) := by
  have hblank : Text.trimBlanks t ≠ "" := by
    intro h
    have hempty : ipAddress "" = none := by decide +kernel
    unfold normalizeExitIp at hnormal
    rw [strip_eq_empty h, hempty] at hnormal
    exact hsome hnormal.symm
  unfold userIps Taken
  simp only [List.mem_filterMap, List.mem_filter, decide_eq_true_iff, Option.filter_eq_some_iff]
  constructor
  · rintro ⟨u, ⟨hu, htrusted⟩, hexit, -⟩
    exact ⟨u, hu, htrusted, hexit⟩
  · rintro ⟨u, hu, htrusted, hexit⟩
    exact ⟨u, ⟨hu, htrusted⟩, hexit, hblank, by rw [hnormal]; exact hsome⟩

theorem pair_sublist_iff {i j : Nat} (horder : order.Pairwise (· < ·)) (hi : i ∈ order)
    (hj : j ∈ order) : [i, j].Sublist order ↔ i < j := by
  constructor
  · intro h
    simpa using horder.sublist h
  · intro h
    have hpair : [i, j].Pairwise (· < ·) := by simpa using h
    refine List.sublist_of_subperm_of_pairwise ?_ hpair horder
    exact List.subperm_of_subset hpair.nodup (by simp [hi, hj])

/-- On rows in their normal form, and with a query in the order of the ids, what is left between the
rules is the evidence of the dashboard. -/
theorem rulesAgree_iff_of_plain (hplain : db.Plain isGlobal) (horder : order.Pairwise (· < ·))
    (hlisted : ∀ b ∈ db.assignments, b.missingAt = none → b.id ∈ order) (ha : a ∈ db.assignments)
    (hmissing : a.missingAt = none) (hexit : a.exitIp ≠ none) :
    a.RulesAgree isGlobal users db order current ↔
      (¬ a.Contested users db → a.Allowed → dashboardReady db a current) := by
  obtain ⟨t, ht⟩ := Option.ne_none_iff_exists'.mp hexit
  obtain ⟨hsome, hnormal⟩ := hplain.exitIp a ha hmissing t ht
  have haddress : a.address isGlobal = t := by
    unfold Assignment.address
    rw [ht, Option.getD_some, hnormal]
  have hsame (b : Assignment) (hb : b ∈ db.assignments) (hbmissing : b.missingAt = none) :
      b.address isGlobal = t ↔ b.exitIp = some t := by
    unfold Assignment.address
    cases hbexit : b.exitIp with
    | none =>
      have hempty : normalizeExitIp isGlobal "" = "" := by
        have hnone : ipAddress (Text.strip "") = none := by decide +kernel
        unfold normalizeExitIp
        rw [hnone]
      simp [hempty, Ne.symm hsome]
    | some t' =>
      have hnormal' := (hplain.exitIp b hb hbmissing t' hbexit).2
      simp [hnormal']
  have hcontested : a.Contested users db ↔ a.AddressContested isGlobal users db order := by
    unfold Assignment.Contested Assignment.AddressContested
    rw [haddress, ht, mem_userIps_iff hsome hnormal, and_iff_right hsome]
    refine or_congr_right (exists_congr fun b => and_congr_right fun hb =>
      and_congr_right fun hbmissing => ?_)
    rw [hsame b hb hbmissing,
      pair_sublist_iff horder (hlisted b hb hbmissing) (hlisted a ha hmissing)]
  constructor
  · exact fun h => h.ready
  · refine fun hready => ⟨hcontested, hready, fun _ hdistributes => ?_⟩
    obtain ⟨hlive, hqualification, heligible, -⟩ := hdistributes
    obtain ⟨hlower, hlower'⟩ := hplain.spelled a ha hmissing
    exact ⟨hlower' ▸ hqualification, hlower ▸ hlive, heligible⟩

end Plain

namespace Scenario

/-- The rows of the contributors, as the services of the provider see them. -/
def contributors : List UserEgress := EarnProxy.Scenario.contributor.proxies.map .ofProxy

/-- The contributor is archived. -/
def archived : UserWrite :=
  .update { id := 1, exitIp := some "8.8.8.8", egressAttestationSource := some .httpsQuorum
            archivedAt := some (minutes 30) }

/-- One row at the address of the contributor, which the dashboard has shown at `observed`. -/
def assigned (observed : Timestamp) : Db :=
  { EarnProxy.Scenario.inventory with
    assignments := [{ EarnProxy.Scenario.offered 1 "8.8.8.8" with
      dashboardObservedAt := some observed }] }

/-- The assignments after the contributor was archived. -/
def released (observed : Timestamp) : Db :=
  archived.fire contributors (minutes 30) (assigned observed)

/-- A reconciliation follows. -/
def reconciled (observed : Timestamp) : Db :=
  reconcileDuplicates (fun _ => true) (archived.apply contributors) (released observed)
    (released observed).assignments (minutes 30)

end Scenario

open EarnProxy.Swap.Scenario in
/-- The row is given out again when the contributor is archived. -/
theorem triggers_agree_iff_archived :
    (∃ a ∈ (released (minutes 29)).assignments, archived.Touches contributors a) ∧
    ∀ a ∈ (released (minutes 29)).assignments,
      archived.Touches contributors a → a ∈ (reconciled (minutes 29)).assignments := by
  have hkeys : Table.Keyed Assignment.id (assigned (minutes 29)).assignments := by
    unfold Table.Keyed
    decide +kernel
  refine ⟨by decide +kernel,
    (triggers_agree_iff hkeys (by decide +kernel)).2.mpr fun a ha _ => rulesAgree_iff.mpr ?_⟩
  revert a
  decide +kernel

open EarnProxy.Swap.Scenario in
/-- The evidence of the dashboard is old: the trigger gives the row out, and a reconciliation takes
it back. -/
theorem triggers_disagree_staleDashboard : ∃ a ∈ (released (minutes 2)).assignments,
    archived.Touches contributors a ∧ a.distributionEnabled = true ∧
    ∀ b ∈ (reconciled (minutes 2)).assignments, b.id = a.id → b.distributionEnabled = false := by
  decide +kernel

end EarnProxy.Swap
