import CodeIntel.Relational.Run
import Mathlib.Data.List.Induction

/-!
# Stores whose values have an owner

A value stands in the store under the owner that stored it first. A write removes
the values of some owners, those of its own owner among them, and stores those of
its values that no remaining owner holds. What the store holds after a run is what
was written and not lost since. It need not be what the last writes of the owners
wrote: a value that a second owner wrote without storing it goes with the first.
-/

namespace CodeIntel.Relational

/-! ## The last element of each key -/

section LastBy

variable {α κ : Type*} [DecidableEq κ] (key : α → κ)

/-- The elements that no later element of the same key follows. -/
def lastBy : List α → List α
  | [] => []
  | a :: as => if as.any (fun b => key b = key a) then lastBy as else a :: lastBy as

theorem mem_lastBy_append {as : List α} {a b : α} :
    b ∈ lastBy key (as ++ [a]) ↔ b = a ∨ b ∈ lastBy key as ∧ key b ≠ key a := by
  induction as with
  | nil => simp [lastBy]
  | cons c as ih =>
    by_cases hlater : as.any (fun b => key b = key c)
    · have hlater' : (as ++ [a]).any (fun b => key b = key c) := by
        simp only [List.any_append, hlater, Bool.true_or]
      rw [List.cons_append, lastBy, if_pos hlater', lastBy, if_pos hlater, ih]
    · by_cases hac : key a = key c
      · have hlater' : (as ++ [a]).any (fun b => key b = key c) := by simp [hac]
        rw [List.cons_append, lastBy, if_pos hlater', lastBy, if_neg hlater, ih, List.mem_cons]
        constructor
        · rintro (rfl | ⟨hb, hne⟩)
          · exact .inl rfl
          · exact .inr ⟨.inr hb, hne⟩
        · rintro (rfl | ⟨rfl | hb, hne⟩)
          · exact .inl rfl
          · exact absurd hac.symm hne
          · exact .inr ⟨hb, hne⟩
      · have hlater' : ¬(as ++ [a]).any (fun b => key b = key c) := by
          simpa [hac] using hlater
        rw [List.cons_append, lastBy, if_neg hlater', lastBy, if_neg hlater, List.mem_cons, ih,
          List.mem_cons]
        constructor
        · rintro (rfl | rfl | ⟨hb, hne⟩)
          · exact .inr ⟨.inl rfl, fun heq => hac heq.symm⟩
          · exact .inl rfl
          · exact .inr ⟨.inr hb, hne⟩
        · rintro (rfl | ⟨rfl | hb, hne⟩)
          · exact .inr (.inl rfl)
          · exact .inl rfl
          · exact .inr (.inr ⟨hb, hne⟩)

theorem mem_of_mem_lastBy {as : List α} {a : α} (h : a ∈ lastBy key as) : a ∈ as := by
  induction as with
  | nil => cases h
  | cons b as ih =>
    unfold lastBy at h
    split at h
    · exact List.mem_cons_of_mem b (ih h)
    · rcases List.mem_cons.1 h with rfl | h
      · exact List.mem_cons_self
      · exact List.mem_cons_of_mem b (ih h)

end LastBy

/-! ## Writes -/

/-- A machine some of whose labels are writes into a store of owned values. A write
`w` in state `s` removes the values of the owners in `removed s w`. -/
structure OwnedStore {σ ℓ : Type*} (M : Machine σ ℓ) (ω κ ν : Type*) where
  Inv : σ → Prop
  holds : σ → κ → ν → Prop
  write : ℓ → Option ω
  owner : ω → κ
  values : ω → List ν
  removed : σ → ω → κ → Prop
  removed_owner : ∀ s w, removed s w (owner w)
  inv_step : ∀ s a s', Inv s → M.step s a = some s' → Inv s'
  keep_step : ∀ s a s', Inv s → M.step s a = some s' → write a = none →
    ∀ k v, holds s' k v ↔ holds s k v
  write_step : ∀ s a s' w, Inv s → M.step s a = some s' → write a = some w →
    ∀ k v, holds s' k v ↔ holds s k v ∧ ¬removed s w k ∨
      k = owner w ∧ v ∈ values w ∧ ∀ k', holds s k' v → removed s w k'

namespace OwnedStore

variable {σ ℓ ω κ ν : Type*} {M : Machine σ ℓ} (S : OwnedStore M ω κ ν)

/-- The store has the value. -/
def Stored (s : σ) (v : ν) : Prop := ∃ k, S.holds s k v

/-- The write takes the value out of the store. -/
def Drops (s : σ) (w : ω) (v : ν) : Prop :=
  S.Stored s v ∧ (∀ k, S.holds s k v → S.removed s w k) ∧ v ∉ S.values w

def writes (as : List ℓ) : List ω := as.filterMap S.write

/-- A write of the run takes the value out of the store and no later one writes it. -/
def Lost (s : σ) (as : List ℓ) (v : ν) : Prop :=
  ∃ pre a post s₁ w, as = pre ++ a :: post ∧ M.run s pre = some s₁ ∧ S.write a = some w ∧
    S.Drops s₁ w v ∧ ∀ w' ∈ S.writes post, v ∉ S.values w'

variable {S} {s s₁ s' : σ} {a : ℓ} {as : List ℓ} {v : ν}

theorem writes_append : S.writes (as ++ [a]) = S.writes as ++ (S.write a).toList := by
  unfold writes
  cases h : S.write a with
  | none => simp [h]
  | some w => simp [h]

theorem inv_run (hs : S.Inv s) (hrun : M.run s as = some s') : S.Inv s' :=
  Machine.run_invariant S.Inv S.inv_step hs hrun

theorem stored_step (hs : S.Inv s) (hstep : M.step s a = some s') {w : ω}
    (hw : S.write a = some w) : S.Stored s' v ↔ v ∈ S.values w ∨ S.Stored s v ∧ ¬S.Drops s w v := by
  have hholds := S.write_step s a s' w hs hstep hw
  constructor
  · rintro ⟨k, hk⟩
    rcases (hholds k v).1 hk with ⟨hold, hkept⟩ | ⟨-, hv, -⟩
    · exact .inr ⟨⟨k, hold⟩, fun hdrop => hkept (hdrop.2.1 k hold)⟩
    · exact .inl hv
  · intro h
    by_cases hall : ∀ k, S.holds s k v → S.removed s w k
    · -- all owners of the value are removed, so it has to be written again
      have hv : v ∈ S.values w := by
        rcases h with hv | ⟨hstored, hkept⟩
        · exact hv
        · by_contra hv
          exact hkept ⟨hstored, hall, hv⟩
      exact ⟨S.owner w, (hholds _ v).2 (.inr ⟨rfl, hv, hall⟩)⟩
    · push Not at hall
      obtain ⟨k, hold, hkept⟩ := hall
      exact ⟨k, (hholds k v).2 (.inl ⟨hold, hkept⟩)⟩

theorem lost_append (hrun : M.run s as = some s₁) :
    S.Lost s (as ++ [a]) v ↔
      S.Lost s as v ∧ (∀ w, S.write a = some w → v ∉ S.values w) ∨
        ∃ w, S.write a = some w ∧ S.Drops s₁ w v := by
  constructor
  · rintro ⟨pre, b, post, s₂, w, heq, hpre, hw, hdrop, hlater⟩
    rcases List.eq_nil_or_concat post with rfl | ⟨post, c, rfl⟩
    · obtain ⟨rfl, hab⟩ := List.append_inj' heq rfl
      obtain rfl : a = b := List.singleton_inj.1 hab
      obtain rfl : s₁ = s₂ := Option.some.inj (hrun.symm.trans hpre)
      exact .inr ⟨w, hw, hdrop⟩
    · rw [List.concat_eq_append] at heq hlater
      have heq' : as ++ [a] = (pre ++ b :: post) ++ [c] := by rw [heq]; simp
      obtain ⟨rfl, hac⟩ := List.append_inj' heq' rfl
      obtain rfl : a = c := List.singleton_inj.1 hac
      rw [writes_append] at hlater
      refine .inl ⟨⟨pre, b, post, s₂, w, rfl, hpre, hw, hdrop, ?_⟩, ?_⟩
      · intro w' hw'
        exact hlater w' (List.mem_append_left _ hw')
      · intro w' hw'
        exact hlater w' (List.mem_append_right _ (by simp [hw']))
  · rintro (⟨⟨pre, b, post, s₂, w, rfl, hpre, hw, hdrop, hlater⟩, hlast⟩ | ⟨w, hw, hdrop⟩)
    · refine ⟨pre, b, post ++ [a], s₂, w, by simp, hpre, hw, hdrop, ?_⟩
      intro w' hw'
      rw [writes_append, List.mem_append, Option.mem_toList] at hw'
      rcases hw' with hw' | hw'
      · exact hlater w' hw'
      · exact hlast w' hw'
    · exact ⟨as, a, [], s₁, w, rfl, hrun, hw, hdrop, by simp [writes]⟩

/-- What the store holds after a run: the values that were written and not lost. -/
theorem stored_run_iff (hs : S.Inv s) (hempty : ∀ v, ¬S.Stored s v)
    (hrun : M.run s as = some s') :
    S.Stored s' v ↔ (∃ w ∈ S.writes as, v ∈ S.values w) ∧ ¬S.Lost s as v := by
  induction as using List.reverseRecOn generalizing s' with
  | nil =>
    cases hrun
    simp [hempty v, writes]
  | append_singleton as a ih =>
    obtain ⟨s₁, hpre, hlast⟩ := M.run_append_eq_some.1 hrun
    obtain ⟨s₂, hstep, hnil⟩ := M.run_cons_eq_some.1 hlast
    obtain rfl : s₂ = s' := Option.some.inj hnil
    have hs₁ : S.Inv s₁ := inv_run hs hpre
    rw [lost_append hpre, writes_append]
    cases hw : S.write a with
    | none =>
      have hsame : S.Stored s₂ v ↔ S.Stored s₁ v :=
        exists_congr fun k => S.keep_step s₁ a s₂ hs₁ hstep hw k v
      rw [hsame, ih hpre]
      simp
    | some w =>
      rw [stored_step hs₁ hstep hw, ih hpre]
      simp only [Option.toList_some, List.mem_append, List.mem_singleton, Option.some.injEq]
      constructor
      · rintro (hv | ⟨⟨⟨w', hw', hv⟩, hkept⟩, hdrop⟩)
        · refine ⟨⟨w, .inr rfl, hv⟩, ?_⟩
          rintro (⟨-, hnot⟩ | ⟨_, rfl, hdrop⟩)
          · exact hnot w rfl hv
          · exact hdrop.2.2 hv
        · refine ⟨⟨w', .inl hw', hv⟩, ?_⟩
          rintro (⟨hlost, -⟩ | ⟨_, rfl, hdrops⟩)
          · exact hkept hlost
          · exact hdrop hdrops
      · rintro ⟨⟨w', hw', hv⟩, hkept⟩
        by_cases hvw : v ∈ S.values w
        · exact .inl hvw
        · rcases hw' with hw' | rfl
          · refine .inr ⟨⟨⟨w', hw', hv⟩, fun hlost => hkept (.inl ⟨hlost, ?_⟩)⟩,
              fun hdrop => hkept (.inr ⟨w, rfl, hdrop⟩)⟩
            rintro _ rfl
            exact hvw
          · exact absurd hv hvw

variable [DecidableEq κ]

/-- The values of the last writes of all owners. -/
def lastValues (S : OwnedStore M ω κ ν) (as : List ℓ) : List ν :=
  (lastBy S.owner (S.writes as)).flatMap S.values

theorem holds_run (hs : S.Inv s) (hempty : ∀ v, ¬S.Stored s v) (hrun : M.run s as = some s')
    {k : κ} (hk : S.holds s' k v) :
    ∃ w ∈ lastBy S.owner (S.writes as), S.owner w = k ∧ v ∈ S.values w := by
  induction as using List.reverseRecOn generalizing s' with
  | nil =>
    cases hrun
    exact absurd ⟨k, hk⟩ (hempty v)
  | append_singleton as a ih =>
    obtain ⟨s₁, hpre, hlast⟩ := M.run_append_eq_some.1 hrun
    obtain ⟨s₂, hstep, hnil⟩ := M.run_cons_eq_some.1 hlast
    obtain rfl : s₂ = s' := Option.some.inj hnil
    have hs₁ : S.Inv s₁ := inv_run hs hpre
    rw [writes_append]
    cases hw : S.write a with
    | none =>
      simpa using ih hpre ((S.keep_step s₁ a s₂ hs₁ hstep hw k v).1 hk)
    | some w =>
      simp only [Option.toList_some, mem_lastBy_append]
      rcases (S.write_step s₁ a s₂ w hs₁ hstep hw k v).1 hk with ⟨hold, hkept⟩ | ⟨rfl, hv, -⟩
      · obtain ⟨w', hw', rfl, hv⟩ := ih hpre hold
        refine ⟨w', .inr ⟨hw', fun heq => hkept ?_⟩, rfl, hv⟩
        rw [heq]
        exact S.removed_owner s₁ w
      · exact ⟨w, .inl rfl, rfl, hv⟩

/-- The store holds exactly the last writes if none of their values is lost. -/
theorem stored_iff_lastValues_iff (hs : S.Inv s) (hempty : ∀ v, ¬S.Stored s v)
    (hrun : M.run s as = some s') :
    (∀ v, S.Stored s' v ↔ v ∈ S.lastValues as) ↔ ∀ v ∈ S.lastValues as, ¬S.Lost s as v := by
  constructor
  · intro h v hv
    exact ((stored_run_iff hs hempty hrun).1 ((h v).2 hv)).2
  · intro h v
    constructor
    · rintro ⟨k, hk⟩
      obtain ⟨w, hw, -, hv⟩ := holds_run hs hempty hrun hk
      exact List.mem_flatMap.2 ⟨w, hw, hv⟩
    · intro hv
      obtain ⟨w, hw, hvw⟩ := List.mem_flatMap.1 hv
      exact (stored_run_iff hs hempty hrun).2 ⟨⟨w, mem_of_mem_lastBy S.owner hw, hvw⟩, h v hv⟩

end OwnedStore

end CodeIntel.Relational
