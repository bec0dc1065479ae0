import Backtest.Document.KeyTable
import Mathlib.RingTheory.ZMod.UnitsCyclic

/-!
# The probe of a key table

A probe jumps from slot `i` to `5 i + 1 + p`, with `p` the hash shifted right by five more bits at
every jump; once the hash is spent the jumps follow `i ↦ 5 i + 1` modulo `2 ^ k`, which goes through
every slot (`iterate_lcg_ne`), so a probe looks at every slot of its table (`mem_probeOrder`).
`probe` is one walk over that order (`probe_eq_walk`), and `place` puts a key at its first free
slot (`freeFrom_eq`).
-/

namespace Backtest.Document.KeyTable

/-! ## The jumps once the hash is spent -/

/-- A jump of a probe whose shifted hash is spent: `5 i + 1` modulo the size. -/
def lcg (size i : Nat) : Nat :=
  (i * 5 + 1) % size

theorem lcg_lt {size : Nat} (hpos : 0 < size) (i : Nat) : lcg size i < size :=
  Nat.mod_lt _ hpos

theorem four_mul_lcg_add_one (k x : Nat) :
    ((4 * lcg (2 ^ k) x + 1 : Nat) : ZMod (2 ^ (k + 2))) =
      5 * ((4 * x + 1 : Nat) : ZMod (2 ^ (k + 2))) := by
  have hdiv := Nat.mod_add_div (x * 5 + 1) (2 ^ k)
  have hzero : ((2 ^ (k + 2) : Nat) : ZMod (2 ^ (k + 2))) = 0 := ZMod.natCast_self _
  -- the multiple of `2 ^ k` dropped by the jump vanishes once multiplied by four
  have hcast : ((4 * lcg (2 ^ k) x : Nat) : ZMod (2 ^ (k + 2))) =
      ((4 * (x * 5 + 1) : Nat) : ZMod _) := by
    conv_rhs => rw [← hdiv]
    unfold lcg
    push_cast at hzero ⊢
    rw [mul_add, show (4 : ZMod (2 ^ (k + 2))) * (2 ^ k * ((x * 5 + 1) / 2 ^ k : Nat)) =
      2 ^ (k + 2) * ((x * 5 + 1) / 2 ^ k : Nat) by ring, hzero, zero_mul, add_zero]
  push_cast at hcast ⊢
  rw [hcast]
  ring

theorem four_mul_iterate_lcg (k x d : Nat) :
    ((4 * (lcg (2 ^ k))^[d] x + 1 : Nat) : ZMod (2 ^ (k + 2))) =
      5 ^ d * ((4 * x + 1 : Nat) : ZMod (2 ^ (k + 2))) := by
  induction d generalizing x with
  | zero => simp
  | succ d ih =>
    rw [Function.iterate_succ_apply, ih, four_mul_lcg_add_one]
    ring

theorem isUnit_five (k : Nat) : IsUnit (5 : ZMod (2 ^ (k + 2))) := by
  have : ((5 : Nat) : ZMod (2 ^ (k + 2))) = 5 := by norm_num
  rw [← this, ZMod.isUnit_iff_coprime]
  exact Nat.Coprime.pow_right _ (by decide)

theorem isUnit_four_mul_add_one (k x : Nat) : IsUnit ((4 * x + 1 : Nat) : ZMod (2 ^ (k + 2))) := by
  rw [ZMod.isUnit_iff_coprime]
  apply Nat.Coprime.pow_right
  rw [Nat.coprime_comm, Nat.Prime.coprime_iff_not_dvd Nat.prime_two]
  omega

theorem iterate_lcg_ne (k : Nat) (x : Nat) {a b : Nat} (hab : a < b) (hb : b < 2 ^ k) :
    (lcg (2 ^ k))^[a] x ≠ (lcg (2 ^ k))^[b] x := by
  intro heq
  have hcast := congrArg (fun i : Nat => ((4 * i + 1 : Nat) : ZMod (2 ^ (k + 2)))) heq
  simp only [four_mul_iterate_lcg] at hcast
  have hpow : (5 : ZMod (2 ^ (k + 2))) ^ a * 1 = 5 ^ a * 5 ^ (b - a) := by
    rw [mul_one, ← pow_add, Nat.add_sub_cancel' hab.le]
    exact (isUnit_four_mul_add_one k x).mul_right_cancel hcast
  have hone := ((isUnit_five k).pow a).mul_left_cancel hpow
  have hdvd : 2 ^ k ∣ b - a := by
    rw [← ZMod.orderOf_five k]
    exact orderOf_dvd_of_pow_eq_one hone.symm
  have := Nat.le_of_dvd (by omega) hdvd
  omega

theorem exists_iterate_lcg (k : Nat) {x j : Nat} (hx : x < 2 ^ k) (hj : j < 2 ^ k) :
    ∃ d < 2 ^ k, (lcg (2 ^ k))^[d] x = j := by
  classical
  have hlt : ∀ d, (lcg (2 ^ k))^[d] x < 2 ^ k := by
    intro d
    cases d with
    | zero => exact hx
    | succ d =>
      rw [Function.iterate_succ_apply']
      exact lcg_lt (by positivity) _
  have hinj : Set.InjOn (fun d => (lcg (2 ^ k))^[d] x) (Finset.range (2 ^ k)) := by
    intro a ha b hb heq
    simp only [Finset.coe_range, Set.mem_Iio] at ha hb
    rcases lt_trichotomy a b with hab | hab | hab
    · exact absurd heq (iterate_lcg_ne k x hab hb)
    · exact hab
    · exact absurd heq.symm (iterate_lcg_ne k x hab ha)
  have hsub : (Finset.range (2 ^ k)).image (fun d => (lcg (2 ^ k))^[d] x) ⊆
      Finset.range (2 ^ k) := by
    intro i hi
    obtain ⟨d, -, rfl⟩ := Finset.mem_image.1 hi
    exact Finset.mem_range.2 (hlt d)
  have heq := Finset.eq_of_subset_of_card_le hsub
    (by rw [Finset.card_image_of_injOn hinj])
  obtain ⟨d, hd, hdj⟩ := Finset.mem_image.1 (heq ▸ Finset.mem_range.2 hj)
  exact ⟨d, Finset.mem_range.1 hd, hdj⟩

/-! ## The slots a probe looks at -/

/-- The slots a probe looks at from slot `i` with shifted hash `perturb`, over `fuel` stretches:
a stretch, then the jump with the hash shifted five more bits. -/
def visits (mask : Nat) : Nat → Nat → UInt64 → List Nat
  | 0, _, _ => []
  | fuel + 1, i, perturb =>
    stretch mask i ++ visits mask fuel (jump mask i (perturb >>> 5)) (perturb >>> 5)

/-- The slots the probe for a hash looks at in an array of `size` slots. -/
def probeOrder (size : Nat) (hash : UInt64) : List Nat :=
  visits (size - 1) (size + 16) (hash.toNat % size) hash

theorem mem_stretch_self (mask i : Nat) : i ∈ stretch mask i := by
  unfold stretch
  split <;> simp

theorem le_of_mem_stretch {mask i j : Nat} (hi : i ≤ mask) (hj : j ∈ stretch mask i) : j ≤ mask := by
  unfold stretch at hj
  split at hj
  · rw [List.mem_range'_1] at hj
    omega
  · rw [List.mem_singleton] at hj
    omega

theorem jump_le (mask i : Nat) (perturb : UInt64) : jump mask i perturb ≤ mask :=
  Nat.le_of_lt_succ (Nat.mod_lt _ (Nat.succ_pos mask))

theorem le_of_mem_visits {mask : Nat} :
    ∀ {fuel i : Nat} {perturb : UInt64} {j : Nat}, i ≤ mask → j ∈ visits mask fuel i perturb →
      j ≤ mask
  | 0, _, _, _, _, hj => by simp [visits] at hj
  | fuel + 1, i, perturb, j, hi, hj => by
    rw [visits, List.mem_append] at hj
    rcases hj with hj | hj
    · exact le_of_mem_stretch hi hj
    · exact le_of_mem_visits (jump_le mask i _) hj

theorem toNat_shift_five (p : UInt64) : (p >>> 5).toNat = p.toNat / 32 := by
  rw [UInt64.toNat_shiftRight, Nat.shiftRight_eq_div_pow]
  rfl

theorem iterate_mem_visits {mask : Nat} :
    ∀ {fuel i d : Nat} {perturb : UInt64}, perturb.toNat = 0 → d < fuel →
      (lcg (mask + 1))^[d] i ∈ visits mask fuel i perturb
  | 0, _, _, _, _, hd => absurd hd (Nat.not_lt_zero _)
  | fuel + 1, i, d, perturb, hp, hd => by
    have hspent : (perturb >>> 5).toNat = 0 := by rw [toNat_shift_five, hp]
    rw [visits, List.mem_append]
    cases d with
    | zero => exact .inl (mem_stretch_self mask i)
    | succ d =>
      right
      have hjump : jump mask i (perturb >>> 5) = lcg (mask + 1) i := by
        rw [jump, hspent, Nat.add_zero]
        rfl
      rw [Function.iterate_succ_apply, ← hjump]
      exact iterate_mem_visits hspent (by omega)

theorem visits_shifted {mask : Nat} :
    ∀ (n : Nat) {fuel i : Nat} {perturb : UInt64}, i ≤ mask →
      ∃ i' ≤ mask, ∃ p' : UInt64, p'.toNat = perturb.toNat / 32 ^ n ∧
        ∀ j ∈ visits mask fuel i' p', j ∈ visits mask (fuel + n) i perturb
  | 0, _, i, perturb, hi => ⟨i, hi, perturb, by simp, fun _ hj => hj⟩
  | n + 1, fuel, i, perturb, hi => by
    obtain ⟨i', hi', p', hp', hsub⟩ :=
      @visits_shifted mask n fuel _ (perturb >>> 5) (jump_le mask i (perturb >>> 5))
    refine ⟨i', hi', p', ?_, fun j hj => ?_⟩
    · rw [hp', toNat_shift_five, Nat.div_div_eq_div_mul, pow_succ, Nat.mul_comm]
    · rw [show fuel + (n + 1) = (fuel + n) + 1 by omega, visits, List.mem_append]
      exact .inr (hsub j hj)

/-- A probe in a table of `2 ^ k` slots looks at every slot. -/
theorem mem_probeOrder {k j : Nat} (hj : j < 2 ^ k) (hash : UInt64) :
    j ∈ probeOrder (2 ^ k) hash := by
  have hpos : 0 < 2 ^ k := by positivity
  have hmask : 2 ^ k - 1 + 1 = 2 ^ k := Nat.sub_add_cancel hpos
  -- thirteen shifts by five bits spend a 64-bit hash
  obtain ⟨i', hi', p', hp', hsub⟩ := @visits_shifted (2 ^ k - 1) 13 (2 ^ k + 3)
    (hash.toNat % 2 ^ k) hash
    (by have := Nat.mod_lt hash.toNat hpos; omega)
  have hspent : p'.toNat = 0 := by
    rw [hp']
    exact Nat.div_eq_of_lt (lt_of_lt_of_le hash.toNat_lt (by norm_num))
  obtain ⟨d, hd, rfl⟩ := exists_iterate_lcg k (x := i') (by omega) hj
  have hmem := @iterate_mem_visits (2 ^ k - 1) (2 ^ k + 3) i' d p' hspent (by omega)
  rw [hmask] at hmem
  exact hsub _ hmem

theorem lt_of_mem_probeOrder {size j : Nat} {hash : UInt64} (hpos : 0 < size)
    (hj : j ∈ probeOrder size hash) : j < size := by
  have := @le_of_mem_visits (size - 1) _ _ _ _
    (by have := Nat.mod_lt hash.toNat hpos; omega) hj
  omega

/-! ## The probe as a walk -/

/-- Whether slot `j` of an array is free. -/
def isFreeAt (slots : Array Slot) (j : Nat) : Bool :=
  match slots[j]? with
  | some .free => true
  | _ => false

/-- The probe as one walk over the slots it looks at: it stops at a slot holding the key, or at
the first free slot, where a new key would go to the first vacated slot passed, if any. -/
def walk (t : KeyTable) (hash : UInt64) (key : Value) : List Nat → Option Nat → Probe
  | [], spare => .absent (spare.getD 0) spare.isSome
  | j :: rest, spare =>
    match t.slots[j]? with
    | some .free =>
      match spare with
      | some s => .absent s true
      | none => .absent j false
    | some (.held h k) =>
      if h == hash && Value.keyEq k key then .present j else walk t hash key rest spare
    | some .vacated => walk t hash key rest (spare <|> some j)
    | none => walk t hash key rest spare

theorem walk_cons (t : KeyTable) (hash : UInt64) (key : Value) (j : Nat) (rest : List Nat)
    (spare : Option Nat) :
    walk t hash key (j :: rest) spare =
      match t.slots[j]? with
      | some .free =>
        match spare with
        | some s => .absent s true
        | none => .absent j false
      | some (.held h k) =>
        if h == hash && Value.keyEq k key then .present j else walk t hash key rest spare
      | some .vacated => walk t hash key rest (spare <|> some j)
      | none => walk t hash key rest spare := rfl

theorem look_cons (t : KeyTable) (hash : UInt64) (key : Value) (j : Nat) (rest : List Nat)
    (spare : Option Nat) :
    t.look hash key (j :: rest) spare =
      match t.slots[j]? with
      | some .free =>
        match spare with
        | some s => .inl (.absent s true)
        | none => .inl (.absent j false)
      | some (.held h k) =>
        if h == hash && Value.keyEq k key then .inl (.present j) else t.look hash key rest spare
      | some .vacated => t.look hash key rest (spare <|> some j)
      | none => .inr spare := rfl

theorem look_walk (t : KeyTable) (hash : UInt64) (key : Value) (rest : List Nat) :
    ∀ (l : List Nat) (spare : Option Nat), (∀ j ∈ l, j < t.slots.size) →
      walk t hash key (l ++ rest) spare =
        match t.look hash key l spare with
        | .inl found => found
        | .inr spare' => walk t hash key rest spare'
  | [], spare, _ => rfl
  | j :: l, spare, hl => by
    have hj : j < t.slots.size := hl j List.mem_cons_self
    have hl' : ∀ i ∈ l, i < t.slots.size := fun i hi => hl i (List.mem_cons_of_mem j hi)
    rw [List.cons_append, walk_cons, look_cons]
    cases hslot : t.slots[j]? with
    | none =>
      simp at hslot
      omega
    | some slot =>
      cases slot with
      | free => cases spare <;> rfl
      | vacated => exact look_walk t hash key rest l _ hl'
      | held h k =>
        dsimp only
        split
        · rfl
        · exact look_walk t hash key rest l spare hl'

theorem probeFrom_eq_walk (t : KeyTable) (hash : UInt64) (key : Value) (hsize : 0 < t.slots.size) :
    ∀ (fuel i : Nat) (perturb : UInt64) (spare : Option Nat), i ≤ t.mask →
      t.probeFrom hash key fuel i perturb spare =
        walk t hash key (visits t.mask fuel i perturb) spare
  | 0, _, _, spare, _ => rfl
  | fuel + 1, i, perturb, spare, hi => by
    have hrange : ∀ j ∈ stretch t.mask i, j < t.slots.size := by
      intro j hj
      have := le_of_mem_stretch hi hj
      unfold mask at this
      omega
    rw [probeFrom, visits, look_walk t hash key _ _ spare hrange]
    cases t.look hash key (stretch t.mask i) spare with
    | inl found => rfl
    | inr spare' => exact probeFrom_eq_walk t hash key hsize fuel _ _ spare' (jump_le _ _ _)

/-- A probe walks over the probe order of its hash. -/
theorem probe_eq_walk (t : KeyTable) (hash : UInt64) (key : Value) (hsize : 0 < t.slots.size) :
    t.probe hash key = walk t hash key (probeOrder t.slots.size hash) none := by
  unfold probe probeOrder probeFuel
  rw [probeFrom_eq_walk t hash key hsize]
  · rfl
  · unfold mask
    have := Nat.mod_lt hash.toNat hsize
    omega

theorem freeFrom_eq (slots : Array Slot) (mask : Nat) :
    ∀ (fuel i : Nat) (perturb : UInt64) {j : Nat},
      (visits mask fuel i perturb).find? (isFreeAt slots) = some j →
        freeFrom slots mask fuel i perturb = j
  | 0, _, _, _, h => by simp [visits] at h
  | fuel + 1, i, perturb, j, h => by
    rw [visits, List.find?_append] at h
    rw [freeFrom]
    change (match (stretch mask i).find? (isFreeAt slots) with
      | some j => j
      | none => freeFrom slots mask fuel (jump mask i (perturb >>> 5)) (perturb >>> 5)) = j
    cases hs : (stretch mask i).find? (isFreeAt slots) with
    | some j' =>
      rw [hs] at h
      exact Option.some.inj h
    | none =>
      rw [hs, Option.none_or] at h
      exact freeFrom_eq slots mask fuel _ _ h

/-- A walk stops at a slot that is free or holds the key. -/
def stopsAt (t : KeyTable) (hash : UInt64) (key : Value) (j : Nat) : Bool :=
  match t.slots[j]? with
  | some .free => true
  | some (.held h k) => h == hash && Value.keyEq k key
  | _ => false

theorem walk_eq_present {t : KeyTable} {hash : UInt64} {key : Value} {j : Nat} :
    ∀ {l : List Nat} {spare : Option Nat}, walk t hash key l spare = .present j →
      ∃ h k, t.slots[j]? = some (.held h k) ∧ (h == hash && Value.keyEq k key) = true
  | [], spare, hw => by cases hw
  | i :: l, spare, hw => by
    rw [walk_cons] at hw
    cases hslot : t.slots[i]? with
    | none =>
      rw [hslot] at hw
      exact walk_eq_present hw
    | some slot =>
      rw [hslot] at hw
      cases slot with
      | free => cases spare <;> cases hw
      | vacated => exact walk_eq_present hw
      | held h k =>
        dsimp only at hw
        split at hw
        · cases hw
          exact ⟨h, k, hslot, by assumption⟩
        · exact walk_eq_present hw

theorem mem_takeWhile_cons_of_ne {i j i' : Nat} {l : List Nat} (hij : i ≠ j) :
    i' ∈ (i :: l).takeWhile (· ≠ j) ↔ i' = i ∨ i' ∈ l.takeWhile (· ≠ j) := by
  rw [List.takeWhile_cons_of_pos (by simpa using hij), List.mem_cons]

theorem walk_of_stops {t : KeyTable} {hash : UInt64} {key : Value} {j : Nat} {k : Value}
    (hj : t.slots[j]? = some (.held hash k)) (hk : Value.keyEq k key = true) :
    ∀ {l : List Nat} (spare : Option Nat), j ∈ l →
      (∀ i ∈ l.takeWhile (· ≠ j), stopsAt t hash key i = false) →
        walk t hash key l spare = .present j
  | [], _, hmem, _ => absurd hmem List.not_mem_nil
  | i :: l, spare, hmem, hbefore => by
    rw [walk_cons]
    by_cases hij : i = j
    · subst hij
      simp [hj, hk]
    · have hstop : stopsAt t hash key i = false :=
        hbefore i ((mem_takeWhile_cons_of_ne hij).2 (.inl rfl))
      have hrest : ∀ i' ∈ l.takeWhile (· ≠ j), stopsAt t hash key i' = false :=
        fun i' hi' => hbefore i' ((mem_takeWhile_cons_of_ne hij).2 (.inr hi'))
      have hmem' : j ∈ l := by
        rcases List.mem_cons.1 hmem with h | h
        · exact absurd h.symm hij
        · exact h
      unfold stopsAt at hstop
      cases hslot : t.slots[i]? with
      | none => exact walk_of_stops hj hk spare hmem' hrest
      | some slot =>
        rw [hslot] at hstop
        cases slot with
        | free => cases hstop
        | vacated => exact walk_of_stops hj hk _ hmem' hrest
        | held h' k' =>
          simp only at hstop
          simp only [hstop, Bool.false_eq_true, if_false]
          exact walk_of_stops hj hk spare hmem' hrest

theorem walk_eq_absent {t : KeyTable} {hash : UInt64} {key : Value} {j : Nat} {r : Bool} :
    ∀ {l : List Nat} {spare : Option Nat}, (∀ i ∈ l, i < t.slots.size) →
      (∃ i ∈ l, isFreeAt t.slots i = true) → walk t hash key l spare = .absent j r →
        (spare = some j ∧ r = true) ∨
          (spare = none ∧ j ∈ l ∧
            (t.slots[j]? = some .free ∧ r = false ∨ t.slots[j]? = some .vacated ∧ r = true) ∧
            ∀ i ∈ l.takeWhile (· ≠ j), isFreeAt t.slots i = false)
  | [], _, _, hfree, _ => by simp at hfree
  | i :: l, spare, hrange, hfree, hw => by
    have hi : i < t.slots.size := hrange i List.mem_cons_self
    have hrange' : ∀ i' ∈ l, i' < t.slots.size := fun i' h => hrange i' (List.mem_cons_of_mem i h)
    rw [walk_cons] at hw
    -- a slot other than a free one leaves a free slot further on
    have hfree' : isFreeAt t.slots i = false → ∃ i' ∈ l, isFreeAt t.slots i' = true := by
      intro hnot
      obtain ⟨i', hi', hfi'⟩ := hfree
      rcases List.mem_cons.1 hi' with rfl | hi'
      · rw [hnot] at hfi'
        cases hfi'
      · exact ⟨i', hi', hfi'⟩
    cases hslot : t.slots[i]? with
    | none => simp at hslot; omega
    | some slot =>
      rw [hslot] at hw
      have hnotfree : slot ≠ .free → isFreeAt t.slots i = false := by
        intro hne
        unfold isFreeAt
        rw [hslot]
        cases slot <;> simp_all
      cases slot with
      | free =>
        cases spare with
        | some s =>
          cases hw
          exact .inl ⟨rfl, rfl⟩
        | none =>
          cases hw
          exact .inr ⟨rfl, List.mem_cons_self, .inl ⟨hslot, rfl⟩, by simp⟩
      | held h k =>
        dsimp only at hw
        split at hw
        · cases hw
        · rcases walk_eq_absent hrange' (hfree' (hnotfree (by simp))) hw with hs | ⟨hs, hj, hslotj, hbefore⟩
          · exact .inl hs
          · have hij : i ≠ j := by
              rintro rfl
              rcases hslotj with ⟨h', -⟩ | ⟨h', -⟩ <;> rw [hslot] at h' <;> cases h'
            refine .inr ⟨hs, List.mem_cons_of_mem i hj, hslotj, ?_⟩
            intro i' hi'
            rcases (mem_takeWhile_cons_of_ne hij).1 hi' with rfl | hi'
            · exact hnotfree (by simp)
            · exact hbefore i' hi'
      | vacated =>
        rcases walk_eq_absent hrange' (hfree' (hnotfree (by simp))) hw with ⟨hs, hr⟩ | ⟨hs, -⟩
        · cases spare with
          | some s => exact .inl ⟨hs, hr⟩
          | none =>
            -- the walk carried on from this vacated slot
            obtain rfl : i = j := Option.some.inj hs
            exact .inr ⟨rfl, List.mem_cons_self, .inr ⟨hslot, hr⟩, by simp⟩
        · cases spare <;> simp at hs

end Backtest.Document.KeyTable

