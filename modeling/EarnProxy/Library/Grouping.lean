import EarnProxy.Library.Table

/-!
# Groups of rows with one leader

Rows of a table form groups, and every member but one points at the key of that one. A leader
that has left its group still counts as long as it is at home there, so a group may be led from
outside until its members elect a new leader.

## Main results

* `Grouping.Led.unique`: a group has at most one member without a pointer.
* `Grouping.Led.map`: what a rewriting must respect to leave a group led.
* `Grouping.Led.handOver`: a leader passes its group on to a member.
-/

namespace Table

variable {α κ γ : Type*}

/-- How rows form groups. -/
structure Grouping (α κ γ : Type*) where
  key : α → κ
  pointer : α → Option κ
  group : α → Option γ
  /-- The group whose leader the row can be. -/
  home : α → Option γ
  atHome : ∀ r g, group r = some g → home r = some g

namespace Grouping

variable [DecidableEq κ] {G : Grouping α κ γ} {rows : List α} {g : γ} {ℓ : κ} {φ : α → α}

/-- The row with key `ℓ` leads the group `g`. -/
structure Leads (G : Grouping α κ γ) (rows : List α) (g : γ) (ℓ : κ) : Prop where
  points : ∀ m ∈ rows, G.group m = some g → G.pointer m = if G.key m = ℓ then none else some ℓ
  home : ∃ k ∈ rows, G.key k = ℓ ∧ G.home k = some g

/-- The group `g` has a leader, unless it is empty. -/
def Led (G : Grouping α κ γ) (rows : List α) (g : γ) : Prop :=
  (∃ m ∈ rows, G.group m = some g) → ∃ ℓ, G.Leads rows g ℓ

/-- The rewriting `φ` leaves the key, the group and the home of every row. -/
structure Fixes (G : Grouping α κ γ) (φ : α → α) : Prop where
  key : ∀ r, G.key (φ r) = G.key r
  group : ∀ r, G.group (φ r) = G.group r
  home : ∀ r, G.home (φ r) = G.home r

/-- Two members without a pointer are one row. -/
theorem Led.unique (h : G.Led rows g) (hk : Keyed G.key rows) {m m' : α} (hm : m ∈ rows)
    (hm' : m' ∈ rows) (hg : G.group m = some g) (hg' : G.group m' = some g)
    (hp : G.pointer m = none) (hp' : G.pointer m' = none) : m = m' := by
  obtain ⟨ℓ, hleads⟩ := h ⟨m, hm, hg⟩
  have hkey : ∀ {r : α}, r ∈ rows → G.group r = some g → G.pointer r = none → G.key r = ℓ := by
    intro r hr hgr hpr
    by_contra hne
    rw [hleads.points r hr hgr, if_neg hne] at hpr
    cases hpr
  exact hk.eq hm hm' ((hkey hm hg hp).trans (hkey hm' hg' hp').symm)

/-- A member that points at `ℓ` is led by `ℓ`. -/
theorem Led.of_pointer (h : G.Led rows g) {m : α} (hm : m ∈ rows) (hg : G.group m = some g)
    (hp : G.pointer m = some ℓ) : G.Leads rows g ℓ ∧ G.key m ≠ ℓ := by
  obtain ⟨ℓ', hleads⟩ := h ⟨m, hm, hg⟩
  have hpoints := hleads.points m hm hg
  rw [hp] at hpoints
  split at hpoints
  · cases hpoints
  · rename_i hne
    obtain rfl := Option.some.inj hpoints
    exact ⟨hleads, hne⟩

/-- One row leads one group. -/
theorem Leads.group_eq {g' : γ} (h : G.Leads rows g ℓ) (h' : G.Leads rows g' ℓ)
    (hk : Keyed G.key rows) : g = g' := by
  obtain ⟨k, hkr, hkey, hhome⟩ := h.home
  obtain ⟨k', hkr', hkey', hhome'⟩ := h'.home
  obtain rfl := hk.eq hkr hkr' (hkey.trans hkey'.symm)
  exact Option.some.inj (hhome.symm.trans hhome')

/-- A rewriting may take members out of the group; those that stay keep their pointers, and no row
leaves its home. -/
theorem Led.map (h : G.Led rows g) (hkey : ∀ r ∈ rows, G.key (φ r) = G.key r)
    (hgroup : ∀ r ∈ rows, G.group (φ r) = some g →
      G.group r = some g ∧ G.pointer (φ r) = G.pointer r)
    (hhome : ∀ r ∈ rows, G.home r = some g → G.home (φ r) = some g) :
    G.Led (rows.map φ) g := by
  rintro ⟨m', hm', hg'⟩
  obtain ⟨m, hm, rfl⟩ := List.mem_map.mp hm'
  obtain ⟨ℓ, hleads⟩ := h ⟨m, hm, (hgroup m hm hg').1⟩
  obtain ⟨k, hk, hkℓ, hkg⟩ := hleads.home
  refine ⟨ℓ, fun r' hr' hgr => ?_, φ k, List.mem_map_of_mem hk, (hkey k hk).trans hkℓ,
    hhome k hk hkg⟩
  obtain ⟨r, hr, rfl⟩ := List.mem_map.mp hr'
  obtain ⟨hgr, hpointer⟩ := hgroup r hr hgr
  rw [hpointer, hkey r hr]
  exact hleads.points r hr hgr

theorem Led.append (h : G.Led rows g) {row : α} (hrow : G.group row = none) :
    G.Led (rows ++ [row]) g := by
  have hold : ∀ m ∈ rows ++ [row], G.group m = some g → m ∈ rows := by
    intro m hm hg
    rcases List.mem_append.mp hm with hm | hm
    · exact hm
    · rw [List.mem_singleton.mp hm, hrow] at hg
      cases hg
  rintro ⟨m, hm, hg⟩
  obtain ⟨ℓ, hleads⟩ := h ⟨m, hold m hm hg, hg⟩
  obtain ⟨k, hk, hkey, hhome⟩ := hleads.home
  exact ⟨ℓ, fun m hm hg => hleads.points m (hold m hm hg) hg, k, List.mem_append_left _ hk, hkey,
    hhome⟩

/-- The members that a rewriting leaves in the group point at one that is at home in it. -/
theorem Led.of_election {w : α} (hw : w ∈ rows) (hkey : ∀ r ∈ rows, G.key (φ r) = G.key r)
    (hhome : G.home (φ w) = some g)
    (hpointer : ∀ r ∈ rows, G.group (φ r) = some g →
      G.pointer (φ r) = if G.key r = G.key w then none else some (G.key w)) :
    G.Led (rows.map φ) g := by
  intro _
  refine ⟨G.key w, fun r' hr' hgr => ?_, φ w, List.mem_map_of_mem hw, hkey w hw, hhome⟩
  obtain ⟨r, hr, rfl⟩ := List.mem_map.mp hr'
  rw [hkey r hr]
  exact hpointer r hr hgr

/-- The member `q` of the group that `c` leads takes it over: `c` and all that pointed at `c` now
point at `q`. -/
theorem Led.handOver (hφ : G.Fixes φ) (hk : Keyed G.key rows) (hall : ∀ g, G.Led rows g) {q : α}
    {c : κ} (hq : q ∈ rows) (hqg : G.group q = some g) (hqc : G.pointer q = some c)
    (hpointer : ∀ r ∈ rows, G.pointer (φ r) =
      if G.key r = G.key q then none
      else if G.key r = c ∨ G.pointer r = some c then some (G.key q)
      else G.pointer r) (g' : γ) : G.Led (rows.map φ) g' := by
  obtain ⟨hleads, hqkey⟩ := (hall g).of_pointer hq hqg hqc
  by_cases hgg : g' = g
  · subst hgg
    refine Led.of_election hq (fun r _ => hφ.key r) ((hφ.home q).trans (G.atHome q _ hqg)) ?_
    intro r hr hgr
    rw [hφ.group] at hgr
    rw [hpointer r hr]
    refine if_congr Iff.rfl rfl (if_pos ?_)
    by_cases hrc : G.key r = c
    · exact .inl hrc
    · exact .inr (by rw [hleads.points r hr hgr, if_neg hrc])
  · -- nothing in another group is, or points at, `c` or `q`
    refine (hall g').map (fun r _ => hφ.key r) (fun r hr hgr => ?_)
      fun r _ hhome => (hφ.home r).trans hhome
    rw [hφ.group] at hgr
    refine ⟨hgr, ?_⟩
    have hhome := G.atHome r g' hgr
    have hrq : G.key r ≠ G.key q := by
      intro hkey
      rw [hk.eq hr hq hkey, hqg] at hgr
      exact hgg (Option.some.inj hgr).symm
    have hrc : ¬ (G.key r = c ∨ G.pointer r = some c) := by
      rintro (hkey | hp)
      · obtain ⟨k, hkr, hkc, hkg⟩ := hleads.home
        rw [hk.eq hr hkr (hkey.trans hkc.symm), hkg] at hhome
        exact hgg (Option.some.inj hhome).symm
      · exact hgg (((hall g').of_pointer hr hgr hp).1.group_eq hleads hk)
    rw [hpointer r hr, if_neg hrq, if_neg hrc]

end Grouping

end Table
