import Mathlib.Algebra.Ring.Nat
import Mathlib.Data.List.Basic
import Mathlib.Data.List.Nodup
import Mathlib.Data.List.MinMax

/-!
# Relational tables as lists of rows

A table is the list of its rows in insertion order. `update` is `UPDATE … SET f WHERE p`,
`lookup` is a `SELECT` by key, and `Keyed` says that the key column is a primary key. The
lemmas let a proof speak about single rows and never about list positions.
-/

namespace Table

variable {α κ : Type*}

/-- `UPDATE rows SET f WHERE p`. -/
def update (p : α → Prop) [DecidablePred p] (f : α → α) (rows : List α) : List α :=
  rows.map fun r => if p r then f r else r

/-- The key column identifies rows. -/
def Keyed (key : α → κ) (rows : List α) : Prop := (rows.map key).Nodup

/-- `SELECT * FROM rows WHERE key = k`. -/
def lookup [DecidableEq κ] (key : α → κ) (k : κ) (rows : List α) : Option α :=
  rows.find? fun r => key r = k

/-- The key an `AUTOINCREMENT` column gives the next row. -/
def nextKey (key : α → Nat) (rows : List α) : Nat := (rows.map key).foldr max 0 + 1

@[simp] theorem update_nil (p : α → Prop) [DecidablePred p] (f : α → α) :
    update p f [] = [] := rfl

theorem mem_update {p : α → Prop} [DecidablePred p] {f : α → α} {rows : List α} {r' : α} :
    r' ∈ update p f rows ↔ ∃ r ∈ rows, (if p r then f r else r) = r' := by
  simp [update]

theorem map_update_of_forall {β : Type*} (g : α → β) {p : α → Prop} [DecidablePred p] {f : α → α}
    (h : ∀ r, p r → g (f r) = g r) (rows : List α) : (update p f rows).map g = rows.map g := by
  induction rows with
  | nil => rfl
  | cons r rows ih =>
    have ih' : (update p f rows).map g = rows.map g := ih
    by_cases hp : p r
    · simpa [update, hp, h r hp] using ih'
    · simpa [update, hp] using ih'

theorem update_eq_self {p : α → Prop} [DecidablePred p] {f : α → α} {rows : List α}
    (h : ∀ r ∈ rows, ¬ p r) : update p f rows = rows := by
  induction rows with
  | nil => rfl
  | cons r rows ih =>
    have hr : ¬ p r := h r (by simp)
    have ih' : update p f rows = rows := ih fun s hs => h s (by simp [hs])
    simpa [update, hr] using ih'

theorem update_congr {p q : α → Prop} [DecidablePred p] [DecidablePred q] {f : α → α}
    (h : ∀ r, p r ↔ q r) (rows : List α) : update p f rows = update q f rows :=
  List.map_congr_left fun r _ => by simp only [h r]

/-- `ORDER BY … LIMIT 1` reads only the columns of the sort key. -/
theorem argmin_map {β : Type*} [LinearOrder β] (f : α → β) (φ : α → α) (hφ : ∀ r, f (φ r) = f r)
    (rows : List α) : (rows.map φ).argmin f = (rows.argmin f).map φ := by
  induction rows using List.reverseRecOn with
  | nil => rfl
  | append_singleton rows r ih =>
    rw [List.map_append, List.map_singleton, List.argmin_concat, List.argmin_concat, ih]
    cases rows.argmin f with
    | none => rfl
    | some m =>
      simp only [Option.map_some, hφ]
      split <;> rfl

theorem Keyed.eq {key : α → κ} {rows : List α} (h : Keyed key rows) {r s : α} (hr : r ∈ rows)
    (hs : s ∈ rows) (hk : key r = key s) : r = s :=
  List.inj_on_of_nodup_map h hr hs hk

theorem Keyed.map {key : α → κ} {rows : List α} (h : Keyed key rows) {φ : α → α}
    (hφ : ∀ r ∈ rows, key (φ r) = key r) : Keyed key (rows.map φ) := by
  have heq : (rows.map φ).map key = rows.map key := by
    rw [List.map_map]
    exact List.map_congr_left hφ
  unfold Keyed
  rw [heq]
  exact h

theorem Keyed.append_fresh {key : α → κ} {rows : List α} (h : Keyed key rows) {row : α}
    (hk : ∀ r ∈ rows, key r ≠ key row) : Keyed key (rows ++ [row]) := by
  unfold Keyed
  rw [List.map_append, List.nodup_append]
  refine ⟨h, by simp, ?_⟩
  intro k hk' k' hk''
  obtain ⟨r, hr, rfl⟩ := List.mem_map.mp hk'
  simp only [List.map_cons, List.map_nil, List.mem_singleton] at hk''
  exact hk'' ▸ hk r hr

theorem Keyed.ne_of_append {key : α → κ} {rows rows' : List α} (h : Keyed key (rows ++ rows'))
    {r r' : α} (hr : r ∈ rows) (hr' : r' ∈ rows') : key r ≠ key r' := by
  unfold Keyed at h
  rw [List.map_append] at h
  exact (List.nodup_append.mp h).2.2 _ (List.mem_map_of_mem hr) _ (List.mem_map_of_mem hr')

/-- A condition that only one row meets selects it by its key. -/
theorem Keyed.update_eq [DecidableEq κ] {key : α → κ} {rows : List α} (h : Keyed key rows)
    {p : α → Prop} [DecidablePred p] {f : α → α} {r : α} (hr : r ∈ rows) (hp : p r)
    (hkey : ∀ s, p s → key s = key r) :
    update p f rows = update (fun s => key s = key r) f rows := by
  refine List.map_congr_left fun s hs => if_congr ⟨hkey s, fun hsr => ?_⟩ rfl rfl
  rwa [h.eq hs hr hsr]

/-- A condition that selects one row writes what becomes of that row. -/
theorem Keyed.update_row [DecidableEq κ] {key : α → κ} {rows : List α} (h : Keyed key rows)
    {p : α → Prop} [DecidablePred p] {f : α → α} {r : α} (hr : r ∈ rows) (hp : p r)
    (hkey : ∀ s, p s → key s = key r) :
    update p f rows = update (fun s => key s = key r) (fun _ => f r) rows := by
  rw [h.update_eq hr hp hkey]
  refine List.map_congr_left fun s hs => ?_
  by_cases hsr : key s = key r
  · rw [h.eq hs hr hsr]
  · rw [if_neg hsr, if_neg hsr]

/-- A row that is replaced by another under its key. -/
theorem Keyed.update_const [DecidableEq κ] {key : α → κ} {rows : List α} (h : Keyed key rows)
    {r r' : α} (hkey : key r' = key r) :
    Keyed key (update (fun s => key s = key r) (fun _ => r') rows) :=
  h.map fun s _ => by
    split
    · rename_i hs
      exact hkey.trans hs.symm
    · rfl

theorem Keyed.filter {key : α → κ} {rows : List α} (h : Keyed key rows) (p : α → Bool) :
    Keyed key (rows.filter p) :=
  (List.filter_sublist.map key).nodup h

/-- Rows that share one key are one row at most. -/
theorem Keyed.length_le_one {key : α → κ} {rows : List α} (h : Keyed key rows)
    (heq : ∀ r ∈ rows, ∀ r' ∈ rows, key r = key r') : rows.length ≤ 1 := by
  match rows with
  | [] | [_] => simp
  | r :: r' :: rest =>
    have hkey : key r = key r' := heq r (by simp) r' (by simp)
    simp [Keyed, hkey] at h

theorem lt_nextKey {key : α → Nat} {rows : List α} {r : α} (hr : r ∈ rows) :
    key r < nextKey key rows := by
  induction rows with
  | nil => simp at hr
  | cons s rows ih =>
    rcases List.mem_cons.mp hr with rfl | h
    · simp only [nextKey, List.map_cons, List.foldr_cons]
      omega
    · have := ih h
      simp only [nextKey, List.map_cons, List.foldr_cons] at this ⊢
      omega

section Grows

variable {move : α → α → Prop} {fresh : α → Prop} {rows rows' rows'' : List α}

/-- A table whose rows stay: each row moves under `move`, and new rows are `fresh`. -/
def Grows (move : α → α → Prop) (fresh : α → Prop) (rows rows' : List α) : Prop :=
  ∃ ψ news, rows' = rows.map ψ ++ news ∧ (∀ r ∈ rows, move r (ψ r)) ∧ ∀ r ∈ news, fresh r

theorem Grows.refl (hrefl : ∀ r, move r r) (rows : List α) : Grows move fresh rows rows :=
  ⟨id, [], by simp, fun r _ => hrefl r, by simp⟩

theorem Grows.trans (htrans : ∀ r r' r'', move r r' → move r' r'' → move r r'')
    (hfresh : ∀ r r', fresh r → move r r' → fresh r') (h : Grows move fresh rows rows')
    (h' : Grows move fresh rows' rows'') : Grows move fresh rows rows'' := by
  obtain ⟨ψ, news, rfl, hψ, hnews⟩ := h
  obtain ⟨ψ', news', rfl, hψ', hnews'⟩ := h'
  refine ⟨ψ' ∘ ψ, news.map ψ' ++ news', by simp, fun r hr => ?_, fun r' hr' => ?_⟩
  · exact htrans _ _ _ (hψ r hr) (hψ' _ (List.mem_append_left _ (List.mem_map_of_mem hr)))
  · rcases List.mem_append.mp hr' with hr' | hr'
    · obtain ⟨r, hr, rfl⟩ := List.mem_map.mp hr'
      exact hfresh _ _ (hnews r hr) (hψ' r (List.mem_append_right _ hr))
    · exact hnews' r' hr'

theorem Grows.mono {move' : α → α → Prop} {fresh' : α → Prop} (h : Grows move fresh rows rows')
    (hmove : ∀ r r', move r r' → move' r r') (hfresh : ∀ r, fresh r → fresh' r) :
    Grows move' fresh' rows rows' := by
  obtain ⟨ψ, news, rfl, hψ, hnews⟩ := h
  exact ⟨ψ, news, rfl, fun r hr => hmove _ _ (hψ r hr), fun r hr => hfresh r (hnews r hr)⟩

theorem Grows.of_update_mem {p : α → Prop} [DecidablePred p] {f : α → α}
    (hrefl : ∀ r, move r r) (h : ∀ r ∈ rows, p r → move r (f r)) :
    Grows move fresh rows (update p f rows) := by
  refine ⟨fun r => if p r then f r else r, [], by simp [update], fun r hr => ?_, by simp⟩
  by_cases hp : p r
  · simpa [hp] using h r hr hp
  · simpa [hp] using hrefl r

theorem Grows.of_update {p : α → Prop} [DecidablePred p] {f : α → α} (hrefl : ∀ r, move r r)
    (h : ∀ r, p r → move r (f r)) (rows : List α) : Grows move fresh rows (update p f rows) :=
  .of_update_mem hrefl fun r _ => h r

theorem Grows.of_append (hrefl : ∀ r, move r r) (rows : List α) {news : List α}
    (h : ∀ r ∈ news, fresh r) : Grows move fresh rows (rows ++ news) :=
  ⟨id, news, by simp, fun r _ => hrefl r, h⟩

end Grows

section Total

variable {p : α → Prop} [DecidablePred p] {w : α → Nat} {rows : List α}

/-- `SELECT COALESCE(SUM(w),0) FROM rows WHERE p`. -/
def total (p : α → Prop) [DecidablePred p] (w : α → Nat) (rows : List α) : Nat :=
  ((rows.filter fun r => p r).map w).sum

@[simp] theorem total_nil : total p w [] = 0 := rfl

@[simp] theorem total_cons (r : α) (rows : List α) :
    total p w (r :: rows) = (if p r then w r else 0) + total p w rows := by
  unfold total
  by_cases hp : p r <;> simp [hp]

theorem total_append (rows rows' : List α) :
    total p w (rows ++ rows') = total p w rows + total p w rows' := by
  simp [total]

theorem total_congr {q : α → Prop} [DecidablePred q] (h : ∀ r, p r ↔ q r) (rows : List α) :
    total p w rows = total q w rows := by
  unfold total
  simp only [h]

/-- A rewriting that keeps the rows that count, with their weights, does not lower the total. -/
theorem total_le_map {φ : α → α} (h : ∀ r ∈ rows, p r → p (φ r) ∧ w (φ r) = w r) :
    total p w rows ≤ total p w (rows.map φ) := by
  induction rows with
  | nil => simp
  | cons r rows ih =>
    have ih' := ih fun s hs => h s (List.mem_cons_of_mem r hs)
    have hr := h r (by simp)
    rw [List.map_cons, total_cons, total_cons]
    by_cases hp : p r
    · obtain ⟨hp', hw⟩ := hr hp
      simp only [hp, hp', if_true, hw]
      omega
    · simp only [hp, if_false]
      omega

/-- An update of one row exchanges its contribution. -/
theorem Keyed.total_update [DecidableEq κ] {key : α → κ} (h : Keyed key rows) {r : α}
    (hr : r ∈ rows) (f : α → α) :
    total p w (update (fun s => key s = key r) f rows) + (if p r then w r else 0) =
      total p w rows + (if p (f r) then w (f r) else 0) := by
  induction rows with
  | nil => simp at hr
  | cons s rows ih =>
    obtain ⟨hs, hrest⟩ := List.nodup_cons.mp h
    have hcons : update (fun s => key s = key r) f (s :: rows) =
        (if key s = key r then f s else s) :: update (fun s => key s = key r) f rows := rfl
    rw [hcons, total_cons, total_cons]
    rcases List.mem_cons.mp hr with rfl | hr
    · have hsame : update (fun s => key s = key r) f rows = rows :=
        update_eq_self fun t ht hkey => hs (hkey ▸ List.mem_map_of_mem ht)
      rw [hsame, if_pos rfl]
      omega
    · have hne : key s ≠ key r := fun hkey => hs (hkey ▸ List.mem_map_of_mem hr)
      have ih' := ih hrest hr
      rw [if_neg hne]
      omega

/-- An update of one row that does not let it count for more. -/
theorem Keyed.total_update_le [DecidableEq κ] {key : α → κ} (h : Keyed key rows) {r : α}
    (hr : r ∈ rows) {f : α → α} (hf : p (f r) → p r ∧ w (f r) ≤ w r) :
    total p w (update (fun s => key s = key r) f rows) ≤ total p w rows := by
  have htotal := h.total_update hr (p := p) (w := w) f
  by_cases hp : p (f r)
  · obtain ⟨hp', hle⟩ := hf hp
    rw [if_pos hp, if_pos hp'] at htotal
    omega
  · rw [if_neg hp] at htotal
    omega

/-- The total without one row. -/
theorem Keyed.total_except [DecidableEq κ] {key : α → κ} (h : Keyed key rows) {r : α}
    (hr : r ∈ rows) :
    total (fun s => p s ∧ key s ≠ key r) w rows + (if p r then w r else 0) = total p w rows := by
  induction rows with
  | nil => simp at hr
  | cons s rows ih =>
    obtain ⟨hs, hrest⟩ := List.nodup_cons.mp h
    rw [total_cons, total_cons]
    rcases List.mem_cons.mp hr with rfl | hr
    · have hsame : total (fun s => p s ∧ key s ≠ key r) w rows = total p w rows := by
        unfold total
        congr 2
        refine List.filter_congr fun t ht => ?_
        have hne : key t ≠ key r := fun hkey => hs (hkey ▸ List.mem_map_of_mem ht)
        simp [hne]
      rw [hsame]
      simp
      omega
    · have hne : key s ≠ key r := fun hkey => hs (hkey ▸ List.mem_map_of_mem hr)
      have ih' := ih hrest hr
      simp only [ne_eq, hne, not_false_eq_true, and_true] at ih' ⊢
      omega

end Total

section Lookup

variable [DecidableEq κ] {key : α → κ} {k : κ} {rows : List α} {r : α}

theorem mem_of_lookup (h : lookup key k rows = some r) : r ∈ rows :=
  List.mem_of_find?_eq_some h

theorem key_of_lookup (h : lookup key k rows = some r) : key r = k := by
  simpa using List.find?_some h

theorem lookup_eq_none : lookup key k rows = none ↔ ∀ r ∈ rows, key r ≠ k := by
  simp [lookup]

theorem Keyed.lookup_eq (h : Keyed key rows) (hr : r ∈ rows) :
    lookup key (key r) rows = some r := by
  cases hl : lookup key (key r) rows with
  | none => exact absurd rfl (lookup_eq_none.mp hl r hr)
  | some s => rw [h.eq (mem_of_lookup hl) hr (key_of_lookup hl)]

/-- Two tables that list the same columns row by row agree on what a lookup finds. -/
theorem lookup_map {φ : α → α} (hφ : ∀ r ∈ rows, key (φ r) = key r) :
    lookup key k (rows.map φ) = (lookup key k rows).map φ := by
  induction rows with
  | nil => rfl
  | cons s rows ih =>
    have hs := hφ s (by simp)
    have ih' := ih fun r hr => hφ r (by simp [hr])
    by_cases hk : key s = k
    · simp [lookup, hs, hk]
    · simpa [lookup, hs, hk] using ih'

/-- A deletion keeps a row or removes it; no other row takes its key. -/
theorem Keyed.lookup_filter (h : Keyed key rows) (p : α → Prop) [DecidablePred p] :
    lookup key k (rows.filter p) = (lookup key k rows).filter p := by
  cases hl : lookup key k rows with
  | none =>
    refine lookup_eq_none.mpr fun r hr => ?_
    exact lookup_eq_none.mp hl r (List.mem_filter.mp hr).1
  | some r =>
    have hr := mem_of_lookup hl
    have hkey := key_of_lookup hl
    have hkept : Keyed key (rows.filter p) := h.filter _
    by_cases hp : p r
    · have hmem : r ∈ rows.filter p := List.mem_filter.mpr ⟨hr, by simpa using hp⟩
      simpa [Option.filter, hp, hkey] using hkept.lookup_eq hmem
    · have hnone : lookup key k (rows.filter p) = none := by
        refine lookup_eq_none.mpr fun s hs hk => hp ?_
        obtain ⟨hmem, hps⟩ := List.mem_filter.mp hs
        obtain rfl := h.eq hmem hr (hk.trans hkey.symm)
        simpa using hps
      simpa [Option.filter, hp] using hnone

theorem lookup_append_singleton (s : α) :
    lookup key k (rows ++ [s]) = (lookup key k rows).or (if key s = k then some s else none) := by
  by_cases hk : key s = k <;> simp [lookup, List.find?_append, hk]

end Lookup

/-! ## Loops that write the rows they have read -/

section Rewrite

variable [DecidableEq κ] {key : α → κ} {statement : α → Option (α → α)}

/-- A loop over the rows as a query has returned them: the statement for a row, if there is one, is
executed on the row with its key. Counts the statements. -/
def rewriteEach (key : α → κ) (statement : α → Option (α → α)) (rows : List α) : List α × Nat :=
  rows.foldl (fun acc row =>
    match statement row with
    | none => acc
    | some f => (update (fun r => key r = key row) f acc.1, acc.2 + 1)) (rows, 0)

/-- What becomes of one row. -/
def rewritten (statement : α → Option (α → α)) (row : α) : α :=
  match statement row with
  | none => row
  | some f => f row

theorem rewritten_of_none {row : α} (h : statement row = none) : rewritten statement row = row := by
  simp [rewritten, h]

omit [DecidableEq κ] in
theorem key_rewritten (hkey : ∀ row f, statement row = some f → key (f row) = key row) (row : α) :
    key (rewritten statement row) = key row := by
  unfold rewritten
  split
  · rfl
  · rename_i f hf
    exact hkey row f hf

theorem Keyed.rewriteEach_eq {rows : List α} (h : Keyed key rows)
    (hkey : ∀ row f, statement row = some f → key (f row) = key row) :
    rewriteEach key statement rows =
      (rows.map (rewritten statement), rows.countP fun row => (statement row).isSome) := by
  -- the rows that were visited are rewritten, the others stand as they were read
  suffices hloop : ∀ (todo done : List α) (n : Nat), Keyed key (done ++ todo) →
      todo.foldl (fun acc row =>
        match statement row with
        | none => acc
        | some f => (update (fun r => key r = key row) f acc.1, acc.2 + 1))
        (done.map (rewritten statement) ++ todo, n) =
      ((done ++ todo).map (rewritten statement),
        n + todo.countP fun row => (statement row).isSome) by
    have hall := hloop rows [] 0 (by simpa using h)
    simpa [rewriteEach] using hall
  intro todo
  induction todo with
  | nil => simp
  | cons row todo ih =>
    intro done n hkeyed
    have hkeyed' : Keyed key ((done ++ [row]) ++ todo) := by simpa using hkeyed
    rw [List.foldl_cons]
    cases hrow : statement row with
    | none =>
      have hsame := rewritten_of_none hrow
      have hrest := ih (done ++ [row]) n hkeyed'
      simp only [List.map_append, List.map_cons, List.map_nil, hsame, List.append_assoc,
        List.cons_append, List.nil_append] at hrest
      simp [hrow, hsame, hrest]
    | some f =>
      have hf : rewritten statement row = f row := by simp [rewritten, hrow]
      have hdone : update (fun r => key r = key row) f (done.map (rewritten statement)) =
          done.map (rewritten statement) := by
        refine update_eq_self fun r' hr' => ?_
        obtain ⟨r, hr, rfl⟩ := List.mem_map.mp hr'
        rw [key_rewritten hkey r]
        exact hkeyed.ne_of_append hr List.mem_cons_self
      have htodo : update (fun r => key r = key row) f todo = todo := by
        refine update_eq_self fun r hr hid => ?_
        exact hkeyed'.ne_of_append (by simp) hr hid.symm
      have hwritten : update (fun r => key r = key row) f
          (done.map (rewritten statement) ++ row :: todo) =
          (done ++ [row]).map (rewritten statement) ++ todo := by
        unfold update at hdone htodo ⊢
        rw [List.map_append, hdone, List.map_cons, if_pos rfl, htodo, List.map_append, ← hf]
        simp
      have hrest := ih (done ++ [row]) (n + 1) hkeyed'
      simp only [hwritten]
      rw [hrest]
      simp [hrow, Nat.add_assoc, Nat.add_comm 1]

end Rewrite

end Table
