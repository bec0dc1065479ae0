import Backtest.Proofs.Document.Probing

/-!
# Key tables of texts are sets

A key table built from texts holds each text once and answers membership by its probe. The
invariant `Sound` says that every held slot holds a text with its hash, reached by the probe for
that hash over taken slots only, that no text is held twice, and that a slot is left free; so
`probe` finds exactly the keys held. Every operation keeps it, and its keys are read off as a set:
insertion adds, erasure removes, and the set operations give the union, intersection and
difference (`Sound.merge`, `Sound.inter`, `Sound.diff`).
-/

namespace Backtest.Document

namespace Slot

/-- Whether a slot is free. -/
def isFree : Slot → Bool
  | .free => true
  | _ => false

/-- Whether a slot holds a key. -/
def isHeld : Slot → Bool
  | .held .. => true
  | _ => false

end Slot

theorem Value.keyEq_str {a b : Value} (ha : a.isStr = true) (hb : b.isStr = true) :
    Value.keyEq a b = true ↔ a = b := by
  cases a <;> cases b <;> simp_all [Value.isStr, Value.keyEq]

namespace KeyTable

theorem isFreeAt_of_getElem? {slots : Array Slot} {j : Nat} {s : Slot} (h : slots[j]? = some s) :
    isFreeAt slots j = s.isFree := by
  unfold isFreeAt
  rw [h]
  cases s <;> rfl

/-- The probe for `hash` meets slot `j`, with only taken slots before it. -/
def Reaches (slots : Array Slot) (hash : UInt64) (j : Nat) : Prop :=
  j ∈ probeOrder slots.size hash ∧
    ∀ i ∈ (probeOrder slots.size hash).takeWhile (· ≠ j), isFreeAt slots i = false

theorem Reaches.mono {slots slots' : Array Slot} {hash : UInt64} {j : Nat}
    (hsize : slots'.size = slots.size)
    (hfree : ∀ i, isFreeAt slots' i = true → isFreeAt slots i = true)
    (h : Reaches slots hash j) : Reaches slots' hash j := by
  refine ⟨hsize ▸ h.1, fun i hi => ?_⟩
  rw [hsize] at hi
  cases hfi : isFreeAt slots' i
  · rfl
  · have hwas := h.2 i hi
    rw [hfree i hfi] at hwas
    cases hwas

/-- Slots that hold texts, each with its hash, each once, each met by its probe. -/
structure Keyed (slots : Array Slot) : Prop where
  held : ∀ {j : Nat} {h : UInt64} {key : Value}, slots[j]? = some (.held h key) →
    key.isStr = true ∧ h = key.hash ∧ Reaches slots h j
  distinct : ∀ {j j' : Nat} {h h' : UInt64} {key : Value}, slots[j]? = some (.held h key) →
    slots[j']? = some (.held h' key) → j = j'

/-- A key table of texts as its operations keep it: keyed slots of a power-of-two count, at most
`fill` of them taken and at most `used` held, and fewer taken than there are. -/
structure Sound (t : KeyTable) : Prop where
  keyed : Keyed t.slots
  pow : ∃ k, t.slots.size = 2 ^ k
  fill : t.slots.countP (fun s => !s.isFree) ≤ t.fill
  used : t.slots.countP Slot.isHeld ≤ t.used
  room : t.fill < t.slots.size

theorem mem_keys {t : KeyTable} {v : Value} :
    v ∈ t.keys ↔ ∃ (j : Nat) (h : UInt64), t.slots[j]? = some (.held h v) := by
  simp only [keys, entries, List.mem_map, List.mem_filterMap, Array.mem_toList_iff,
    Array.mem_iff_getElem?]
  constructor
  · rintro ⟨⟨h, k⟩, ⟨s, ⟨j, hj⟩, hs⟩, rfl⟩
    cases s <;> simp at hs
    obtain ⟨rfl, rfl⟩ := hs
    exact ⟨j, _, hj⟩
  · rintro ⟨j, h, hj⟩
    exact ⟨(h, v), ⟨.held h v, ⟨j, hj⟩, rfl⟩, rfl⟩

theorem exists_free_of_countP_lt {slots : Array Slot}
    (h : slots.countP (fun s => !s.isFree) < slots.size) :
    ∃ i, i < slots.size ∧ isFreeAt slots i = true := by
  obtain ⟨s, hs, hfree⟩ : ∃ s ∈ slots, s.isFree = true := by
    by_contra hnone
    have hall : slots.countP (fun s => !s.isFree) = slots.size :=
      Array.countP_eq_size.2 fun s hs => by
        cases hf : s.isFree
        · rfl
        · exact absurd ⟨s, hs, hf⟩ hnone
    omega
  obtain ⟨i, hi⟩ := Array.mem_iff_getElem?.1 hs
  exact ⟨i, (Array.getElem?_eq_some_iff.1 hi).1, by rw [isFreeAt_of_getElem? hi, hfree]⟩

section Probe

variable {t : KeyTable} {key : Value} {j : Nat}

theorem Sound.exists_free (ht : t.Sound) (hash : UInt64) :
    ∃ i ∈ probeOrder t.slots.size hash, isFreeAt t.slots i = true := by
  obtain ⟨i, hlt, hfree⟩ := exists_free_of_countP_lt (lt_of_le_of_lt ht.fill ht.room)
  obtain ⟨k, hk⟩ := ht.pow
  refine ⟨i, ?_, hfree⟩
  rw [hk] at hlt ⊢
  exact mem_probeOrder hlt hash

theorem Sound.size_pos (ht : t.Sound) : 0 < t.slots.size :=
  lt_of_le_of_lt (Nat.zero_le _) ht.room

theorem not_mem_takeWhile_self {l : List Nat} {i j : Nat} (hi : i ∈ l.takeWhile (· ≠ j)) :
    i ≠ j := by
  induction l with
  | nil => simp at hi
  | cons a l ih =>
    by_cases ha : a = j
    · rw [List.takeWhile_cons_of_neg (by simpa using ha)] at hi
      simp at hi
    · rcases (mem_takeWhile_cons_of_ne ha).1 hi with rfl | hi
      · exact ha
      · exact ih hi

theorem Sound.probe_held (ht : t.Sound) {h : UInt64} (hj : t.slots[j]? = some (.held h key)) :
    t.probe key.hash key = .present j := by
  obtain ⟨hstr, rfl, hmem, hbefore⟩ := ht.keyed.held hj
  rw [probe_eq_walk t _ key ht.size_pos]
  apply walk_of_stops hj ((Value.keyEq_str hstr hstr).2 rfl) none hmem
  -- before its slot, the probe meets only taken slots holding other texts
  intro i hi
  unfold stopsAt
  cases hslot : t.slots[i]? with
  | none => rfl
  | some s =>
    have hfree := hbefore i hi
    rw [isFreeAt_of_getElem? hslot] at hfree
    cases s with
    | free => cases hfree
    | vacated => rfl
    | held h' k' =>
      have hk' := (ht.keyed.held hslot).1
      dsimp only
      cases hmatch : Value.keyEq k' key
      · simp
      · rw [(Value.keyEq_str hk' hstr).1 hmatch] at hslot
        exact absurd (ht.keyed.distinct hslot hj) (not_mem_takeWhile_self hi)

theorem Sound.probe_present (ht : t.Sound) (hkey : key.isStr = true)
    (hp : t.probe key.hash key = .present j) : ∃ h, t.slots[j]? = some (.held h key) := by
  rw [probe_eq_walk t _ key ht.size_pos] at hp
  obtain ⟨h, k, hj, hmatch⟩ := walk_eq_present hp
  have hk := (ht.keyed.held hj).1
  rw [Bool.and_eq_true] at hmatch
  rw [(Value.keyEq_str hk hkey).1 hmatch.2] at hj
  exact ⟨h, hj⟩

/-- The probe for a text that no slot holds ends at the slot the text would take: the first
vacated slot before the first free one, or that free one, met with only taken slots before it. -/
theorem Sound.probe_absent (ht : t.Sound) {r : Bool}
    (hp : t.probe key.hash key = .absent j r) :
    j < t.slots.size ∧
      (t.slots[j]? = some .free ∧ r = false ∨ t.slots[j]? = some .vacated ∧ r = true) ∧
      Reaches t.slots key.hash j := by
  rw [probe_eq_walk t _ key ht.size_pos] at hp
  have hrange : ∀ i ∈ probeOrder t.slots.size key.hash, i < t.slots.size :=
    fun i hi => lt_of_mem_probeOrder ht.size_pos hi
  rcases walk_eq_absent hrange (ht.exists_free key.hash) hp with ⟨hs, -⟩ | ⟨-, hmem, hslot, hbefore⟩
  · cases hs
  · exact ⟨hrange j hmem, hslot, hmem, hbefore⟩

theorem Sound.not_held_of_absent (ht : t.Sound) {r : Bool}
    (hp : t.probe key.hash key = .absent j r) :
    ∀ (j' : Nat) (h : UInt64), t.slots[j']? ≠ some (.held h key) := by
  intro j' h hj'
  rw [ht.probe_held hj'] at hp
  cases hp

/-- A sound table contains exactly the texts it holds. -/
theorem Sound.contains_iff (ht : t.Sound) (hkey : key.isStr = true) :
    t.contains key.hash key = true ↔ key ∈ t.keys := by
  rw [mem_keys]
  unfold contains
  cases hp : t.probe key.hash key with
  | present j =>
    simp only [true_iff]
    obtain ⟨h, hj⟩ := ht.probe_present hkey hp
    exact ⟨j, h, hj⟩
  | absent j r =>
    simp only [Bool.false_eq_true, false_iff, not_exists]
    exact ht.not_held_of_absent hp

end Probe

/-! ## Writing one slot -/

section Write

variable {slots : Array Slot} {j : Nat} {a : Slot}

theorem countP_set! (p : Slot → Bool) (hj : j < slots.size) :
    (slots.set! j a).countP p =
      slots.countP p - (if p slots[j] then 1 else 0) + (if p a then 1 else 0) := by
  rw [Array.set!_eq_setIfInBounds, Array.setIfInBounds, dif_pos hj, Array.countP_set]

theorem countP_set!_same (p : Slot → Bool) (hj : j < slots.size) (hpa : p a = p slots[j]) :
    (slots.set! j a).countP p = slots.countP p := by
  rw [countP_set! p hj, hpa]
  split
  · have : 0 < slots.countP p := Array.countP_pos_iff.2 ⟨slots[j], Array.getElem_mem hj, by assumption⟩
    omega
  · rfl

theorem countP_set!_succ (p : Slot → Bool) (hj : j < slots.size) (hold : p slots[j] = false)
    (hnew : p a = true) : (slots.set! j a).countP p = slots.countP p + 1 := by
  rw [countP_set! p hj, hold, hnew]
  rfl

theorem countP_set!_pred (p : Slot → Bool) (hj : j < slots.size) (hold : p slots[j] = true)
    (hnew : p a = false) : (slots.set! j a).countP p + 1 = slots.countP p := by
  have : 0 < slots.countP p := Array.countP_pos_iff.2 ⟨slots[j], Array.getElem_mem hj, hold⟩
  rw [countP_set! p hj, hold, hnew]
  simp only [if_true, Bool.false_eq_true, if_false, Nat.add_zero]
  omega

theorem getElem?_set!_self (hj : j < slots.size) : (slots.set! j a)[j]? = some a := by
  simp [hj]

theorem getElem?_set!_ne {i : Nat} (hij : j ≠ i) : (slots.set! j a)[i]? = slots[i]? := by
  simp [hij]

theorem isFreeAt_set! (ha : a.isFree = false) {i : Nat} (hi : isFreeAt (slots.set! j a) i = true) :
    isFreeAt slots i = true := by
  by_cases hij : j = i
  · subst hij
    by_cases hj : j < slots.size
    · rw [isFreeAt_of_getElem? (getElem?_set!_self hj), ha] at hi
      cases hi
    · rwa [Array.set!_eq_setIfInBounds, Array.setIfInBounds_eq_of_size_le (by omega)] at hi
  · unfold isFreeAt at hi ⊢
    rwa [getElem?_set!_ne hij] at hi

theorem reaches_set! (ha : a.isFree = false) {hash : UInt64} {i : Nat}
    (h : Reaches slots hash i) : Reaches (slots.set! j a) hash i :=
  h.mono (by simp) fun _ hi => isFreeAt_set! ha hi

theorem Keyed.setHeld (hk : Keyed slots) {key : Value} (hkey : key.isStr = true)
    (hfresh : ∀ (i : Nat) (h : UInt64), slots[i]? ≠ some (.held h key))
    (hj : j < slots.size) (hreach : Reaches slots key.hash j) :
    Keyed (slots.set! j (.held key.hash key)) := by
  have hnf : (Slot.held key.hash key).isFree = false := rfl
  -- a held slot of the new array is the new one or an old one
  have hcases : ∀ {i : Nat} {h : UInt64} {k : Value},
      (slots.set! j (.held key.hash key))[i]? = some (.held h k) →
        (i = j ∧ h = key.hash ∧ k = key) ∨ slots[i]? = some (.held h k) := by
    intro i h k hi
    by_cases hij : j = i
    · subst hij
      rw [getElem?_set!_self hj] at hi
      cases hi
      exact .inl ⟨rfl, rfl, rfl⟩
    · rw [getElem?_set!_ne hij] at hi
      exact .inr hi
  constructor
  · intro i h k hi
    rcases hcases hi with ⟨rfl, rfl, rfl⟩ | hold
    · exact ⟨hkey, rfl, reaches_set! hnf hreach⟩
    · obtain ⟨hs, hh, hr⟩ := hk.held hold
      exact ⟨hs, hh, reaches_set! hnf hr⟩
  · intro i i' h h' k hi hi'
    rcases hcases hi with ⟨rfl, -, rfl⟩ | hold <;> rcases hcases hi' with ⟨rfl, -, hkk⟩ | hold'
    · rfl
    · exact absurd hold' (hfresh i' h')
    · subst hkk
      exact absurd hold (hfresh i h)
    · exact hk.distinct hold hold'

theorem Keyed.setVacated (hk : Keyed slots) : Keyed (slots.set! j .vacated) := by
  have hold : ∀ {i : Nat} {h : UInt64} {k : Value},
      (slots.set! j .vacated)[i]? = some (.held h k) → slots[i]? = some (.held h k) := by
    intro i h k hi
    by_cases hij : j = i
    · subst hij
      by_cases hj : j < slots.size
      · rw [getElem?_set!_self hj] at hi
        cases hi
      · rwa [Array.set!_eq_setIfInBounds, Array.setIfInBounds_eq_of_size_le (by omega)] at hi
    · rwa [getElem?_set!_ne hij] at hi
  constructor
  · intro i h k hi
    obtain ⟨hs, hh, hr⟩ := hk.held (hold hi)
    exact ⟨hs, hh, reaches_set! rfl hr⟩
  · intro i i' h h' k hi hi'
    exact hk.distinct (hold hi) (hold hi')

theorem held_set!_iff {key v : Value} {hash : UInt64} (hj : j < slots.size)
    (hnot : ∀ (h : UInt64) (k : Value), slots[j]? ≠ some (.held h k)) :
    (∃ (i : Nat) (h : UInt64), (slots.set! j (.held hash key))[i]? = some (.held h v)) ↔
      (∃ (i : Nat) (h : UInt64), slots[i]? = some (.held h v)) ∨ v = key := by
  constructor
  · rintro ⟨i, h, hi⟩
    by_cases hij : j = i
    · subst hij
      rw [getElem?_set!_self hj] at hi
      cases hi
      exact .inr rfl
    · rw [getElem?_set!_ne hij] at hi
      exact .inl ⟨i, h, hi⟩
  · rintro (⟨i, h, hi⟩ | rfl)
    · have hij : j ≠ i := by
        rintro rfl
        exact hnot h v hi
      exact ⟨i, h, by rw [getElem?_set!_ne hij, hi]⟩
    · exact ⟨j, hash, getElem?_set!_self hj⟩

theorem held_vacated_iff {key v : Value} {hash : UInt64}
    (hj : slots[j]? = some (.held hash key)) (hk : Keyed slots) :
    (∃ (i : Nat) (h : UInt64), (slots.set! j .vacated)[i]? = some (.held h v)) ↔
      (∃ (i : Nat) (h : UInt64), slots[i]? = some (.held h v)) ∧ v ≠ key := by
  have hlt := (Array.getElem?_eq_some_iff.1 hj).1
  constructor
  · rintro ⟨i, h, hi⟩
    by_cases hij : j = i
    · subst hij
      rw [getElem?_set!_self hlt] at hi
      cases hi
    · rw [getElem?_set!_ne hij] at hi
      refine ⟨⟨i, h, hi⟩, ?_⟩
      rintro rfl
      exact hij (hk.distinct hj hi)
  · rintro ⟨⟨i, h, hi⟩, hne⟩
    have hij : j ≠ i := by
      rintro rfl
      rw [hj] at hi
      cases hi
      exact hne rfl
    exact ⟨i, h, by rw [getElem?_set!_ne hij, hi]⟩

end Write

/-! ## The entries of a table -/

theorem mem_entries {t : KeyTable} {h : UInt64} {k : Value} :
    (h, k) ∈ t.entries ↔ ∃ j : Nat, t.slots[j]? = some (.held h k) := by
  simp only [entries, List.mem_filterMap, Array.mem_toList_iff, Array.mem_iff_getElem?]
  constructor
  · rintro ⟨s, ⟨j, hj⟩, hs⟩
    cases s <;> simp at hs
    obtain ⟨rfl, rfl⟩ := hs
    exact ⟨j, hj⟩
  · rintro ⟨j, hj⟩
    exact ⟨.held h k, ⟨j, hj⟩, rfl⟩

theorem length_entries (t : KeyTable) : t.entries.length = t.slots.countP Slot.isHeld := by
  unfold entries
  rw [List.length_filterMap_eq_countP, ← Array.countP_toList]
  congr 1
  funext s
  cases s <;> rfl

theorem nodup_filterMap {α β : Type} {g : α → Option β} :
    ∀ {l : List α}, (∀ (i i' : Nat) (b : β), l[i]?.bind g = some b → l[i']?.bind g = some b →
      i = i') → (l.filterMap g).Nodup
  | [], _ => List.nodup_nil
  | a :: l, hl => by
    have htail : (l.filterMap g).Nodup := nodup_filterMap fun i i' b hi hi' =>
      Nat.succ_injective (hl (i + 1) (i' + 1) b hi hi')
    rw [List.filterMap_cons]
    cases ha : g a with
    | none => exact htail
    | some b =>
      refine List.nodup_cons.2 ⟨fun hb => ?_, htail⟩
      obtain ⟨x, hx, hxb⟩ := List.mem_filterMap.1 hb
      obtain ⟨i', hi'⟩ := List.mem_iff_getElem?.1 hx
      have := hl 0 (i' + 1) b (by simp [ha]) (by simp [hi', hxb])
      omega

theorem Keyed.nodup_keys {t : KeyTable} (hk : Keyed t.slots) : t.keys.Nodup := by
  have hkeys : t.keys = t.slots.toList.filterMap fun s => match s with
      | .held _ k => some k
      | _ => none := by
    unfold keys entries
    rw [List.map_filterMap]
    congr 1
    funext s
    cases s <;> rfl
  rw [hkeys]
  apply nodup_filterMap
  intro i i' b hi hi'
  rw [Array.getElem?_toList] at hi hi'
  cases hs : t.slots[i]? with
  | none => simp [hs] at hi
  | some s =>
    cases hs' : t.slots[i']? with
    | none => simp [hs'] at hi'
    | some s' =>
      rw [hs] at hi
      rw [hs'] at hi'
      cases s <;> cases s' <;> simp at hi hi'
      subst hi hi'
      exact hk.distinct hs hs'

/-! ## Placing keys in fresh slots -/

/-- Slots of a table placed afresh: none vacated. -/
def NoVacated (slots : Array Slot) : Prop :=
  ∀ i : Nat, slots[i]? ≠ some Slot.vacated

theorem find?_takeWhile_ne {p : Nat → Bool} :
    ∀ {l : List Nat} {j : Nat}, l.find? p = some j → ∀ i ∈ l.takeWhile (· ≠ j), p i = false
  | [], _, h => by simp at h
  | a :: l, j, h => by
    intro i hi
    rw [List.find?_cons] at h
    cases ha : p a
    · rw [ha] at h
      by_cases haj : a = j
      · subst haj
        rw [List.find?_some h] at ha
        cases ha
      · rcases (mem_takeWhile_cons_of_ne haj).1 hi with rfl | hi
        · exact ha
        · exact find?_takeWhile_ne h i hi
    · rw [ha] at h
      cases h
      rw [List.takeWhile_cons_of_neg (by simp)] at hi
      simp at hi

theorem countP_taken_of_noVacated {slots : Array Slot} (hnv : NoVacated slots) :
    slots.countP (fun s => !s.isFree) = slots.countP Slot.isHeld := by
  apply Array.countP_congr
  intro s hs
  obtain ⟨i, hi⟩ := Array.mem_iff_getElem?.1 hs
  cases s with
  | vacated => exact absurd hi (hnv i)
  | _ => rfl

section Place

variable {slots : Array Slot}

theorem Keyed.placed (hk : Keyed slots) (hnv : NoVacated slots) (hpow : ∃ k, slots.size = 2 ^ k)
    (hroom : slots.countP Slot.isHeld < slots.size) {key : Value} (hkey : key.isStr = true)
    (hfresh : ∀ (i : Nat) (h : UInt64), slots[i]? ≠ some (.held h key)) :
    Keyed (KeyTable.place slots key.hash key) ∧ NoVacated (KeyTable.place slots key.hash key) ∧
      (KeyTable.place slots key.hash key).size = slots.size ∧
      (KeyTable.place slots key.hash key).countP Slot.isHeld = slots.countP Slot.isHeld + 1 ∧
      ∀ v, (∃ (i : Nat) (h : UInt64), (KeyTable.place slots key.hash key)[i]? = some (.held h v)) ↔
        (∃ (i : Nat) (h : UInt64), slots[i]? = some (.held h v)) ∨ v = key := by
  obtain ⟨k, hk2⟩ := hpow
  obtain ⟨i, hi⟩ := exists_free_of_countP_lt (countP_taken_of_noVacated hnv ▸ hroom)
  have hmem : i ∈ probeOrder slots.size key.hash := by
    rw [hk2] at hi ⊢
    exact mem_probeOrder hi.1 key.hash
  obtain ⟨j, hfind⟩ : ∃ j, (probeOrder slots.size key.hash).find? (isFreeAt slots) = some j :=
    Option.isSome_iff_exists.1 (List.find?_isSome.2 ⟨i, hmem, hi.2⟩)
  have hjfree : isFreeAt slots j = true := List.find?_some hfind
  have hjmem : j ∈ probeOrder slots.size key.hash := List.mem_of_find?_eq_some hfind
  have hj : j < slots.size := lt_of_mem_probeOrder (by omega) hjmem
  have hplace : KeyTable.place slots key.hash key = slots.set! j (.held key.hash key) := by
    unfold place
    rw [freeFrom_eq slots (slots.size - 1) (slots.size + 16) _ _ hfind]
  have hslot : slots[j]? = some .free := by
    unfold isFreeAt at hjfree
    cases hs : slots[j]? with
    | none => rw [hs] at hjfree; cases hjfree
    | some s => rw [hs] at hjfree; cases s <;> simp_all
  have hnotheld : ∀ (h : UInt64) (k : Value), slots[j]? ≠ some (.held h k) := by
    intro h k hh
    rw [hslot] at hh
    cases hh
  rw [hplace]
  refine ⟨hk.setHeld hkey hfresh hj ⟨hjmem, find?_takeWhile_ne hfind⟩, fun i' hi' => ?_, by simp,
    ?_, fun v => held_set!_iff hj hnotheld⟩
  · by_cases hji : j = i'
    · subst hji
      rw [getElem?_set!_self hj] at hi'
      cases hi'
    · rw [getElem?_set!_ne hji] at hi'
      exact hnv i' hi'
  · exact countP_set!_succ Slot.isHeld hj (by rw [(Array.getElem?_eq_some_iff.1 hslot).2]; rfl) rfl

theorem Keyed.placeAll :
    ∀ (es : List (UInt64 × Value)) {slots : Array Slot}, Keyed slots → NoVacated slots →
      (∃ k, slots.size = 2 ^ k) → slots.countP Slot.isHeld + es.length ≤ slots.size →
      (∀ e ∈ es, e.2.isStr = true ∧ e.1 = e.2.hash) → (es.map Prod.snd).Nodup →
      (∀ e ∈ es, ∀ (i : Nat) (h : UInt64), slots[i]? ≠ some (.held h e.2)) →
      let slots' := es.foldl (fun acc e => KeyTable.place acc e.1 e.2) slots
      Keyed slots' ∧ NoVacated slots' ∧ slots'.size = slots.size ∧
        slots'.countP Slot.isHeld = slots.countP Slot.isHeld + es.length ∧
        ∀ v, (∃ (i : Nat) (h : UInt64), slots'[i]? = some (.held h v)) ↔
          (∃ (i : Nat) (h : UInt64), slots[i]? = some (.held h v)) ∨ v ∈ es.map Prod.snd
  | [], slots, hk, hnv, _, _, _, _, _ => ⟨hk, hnv, rfl, rfl, fun v => by simp⟩
  | (h, key) :: es, slots, hk, hnv, hpow, hroom, hes, hnodup, hfresh => by
    obtain ⟨hkey, hh⟩ := hes (h, key) List.mem_cons_self
    simp only at hkey hh
    subst hh
    rw [List.map_cons, List.nodup_cons] at hnodup
    obtain ⟨hk', hnv', hsize', hcount', hheld'⟩ :=
      hk.placed hnv hpow (by simp at hroom; omega) hkey (hfresh (key.hash, key) List.mem_cons_self)
    -- the later texts are new to the slots after this one is placed
    have hfresh' : ∀ e ∈ es, ∀ (i : Nat) (h' : UInt64),
        (KeyTable.place slots key.hash key)[i]? ≠ some (.held h' e.2) := by
      intro e he i h' hi
      rcases (hheld' e.2).1 ⟨i, h', hi⟩ with ⟨i', h'', hi'⟩ | heq
      · exact hfresh e (List.mem_cons_of_mem _ he) i' h'' hi'
      · exact hnodup.1 (List.mem_map.2 ⟨e, he, heq⟩)
    obtain ⟨hkf, hnvf, hsizef, hcountf, hheldf⟩ := Keyed.placeAll es hk' hnv'
      (hsize' ▸ hpow) (by simp at hroom; omega) (fun e he => hes e (List.mem_cons_of_mem _ he))
      hnodup.2 hfresh'
    refine ⟨hkf, hnvf, hsizef.trans hsize', by simp [hcountf, hcount']; omega, fun v => ?_⟩
    rw [List.foldl_cons, hheldf, hheld', List.map_cons, List.mem_cons, or_assoc]

end Place

/-! ## Growing -/

theorem sizeAbove_pow (n : Nat) : ∃ k, sizeAbove n = 2 ^ k := by
  unfold sizeAbove
  split
  · exact ⟨3, rfl⟩
  · exact ⟨Nat.log2 n + 1, rfl⟩

theorem lt_sizeAbove (n : Nat) : n < sizeAbove n := by
  unfold sizeAbove
  split
  · omega
  · exact Nat.lt_log2_self

theorem Keyed.entry {t : KeyTable} (hk : Keyed t.slots) {e : UInt64 × Value} (he : e ∈ t.entries) :
    e.2.isStr = true ∧ e.1 = e.2.hash := by
  obtain ⟨j, hj⟩ := mem_entries.1 he
  obtain ⟨hs, hh, -⟩ := hk.held hj
  exact ⟨hs, hh⟩

theorem size_resize (t : KeyTable) (n : Nat) : (t.resize n).slots.size = sizeAbove n := by
  have hfold : ∀ (es : List (UInt64 × Value)) (slots : Array Slot),
      (es.foldl (fun acc e => KeyTable.place acc e.1 e.2) slots).size = slots.size := by
    intro es
    induction es with
    | nil => intro slots; rfl
    | cons e es ih => intro slots; rw [List.foldl_cons, ih]; simp [KeyTable.place]
  exact (hfold t.entries _).trans (Array.size_replicate ..)

/-- Placing again the keys of keyed slots, counted by `used`, in a table of the least size above
`n` keeps them, and leaves a sound table when `n` is at least `used`. -/
theorem Keyed.resize {t : KeyTable} (hk : Keyed t.slots) (hused : t.slots.countP Slot.isHeld ≤ t.used)
    {n : Nat} (hn : t.used ≤ n) :
    (t.resize n).Sound ∧ ∀ v, v ∈ (t.resize n).keys ↔ v ∈ t.keys := by
  have hfresh : Keyed (Array.replicate (sizeAbove n) Slot.free) := by
    constructor <;> intro i <;> intros <;> simp_all [Array.getElem?_replicate]
  have hnv : NoVacated (Array.replicate (sizeAbove n) Slot.free) := by
    intro i
    simp [Array.getElem?_replicate]
  have hcount0 : (Array.replicate (sizeAbove n) Slot.free).countP Slot.isHeld = 0 := by
    simp [Slot.isHeld]
  have hlen := length_entries t
  obtain ⟨hkf, hnvf, hsizef, hcountf, hheldf⟩ := Keyed.placeAll t.entries hfresh hnv
    (by simpa using sizeAbove_pow n)
    (by rw [hcount0, hlen]; simp; have := lt_sizeAbove n; omega)
    (fun e he => hk.entry he)
    (by simpa [keys] using hk.nodup_keys)
    (fun e _ i h hi => by simp [Array.getElem?_replicate] at hi)
  refine ⟨⟨hkf, ?_, ?_, ?_, ?_⟩, fun v => ?_⟩
  · simpa [KeyTable.resize, hsizef] using sizeAbove_pow n
  · simp only [KeyTable.resize]
    rw [countP_taken_of_noVacated hnvf, hcountf, hcount0, hlen]
    omega
  · simp only [KeyTable.resize]
    rw [hcountf, hcount0, hlen]
    omega
  · simp only [KeyTable.resize, hsizef, Array.size_replicate]
    have := lt_sizeAbove n
    omega
  · rw [mem_keys, mem_keys]
    simp only [KeyTable.resize]
    rw [hheldf]
    simp only [Array.getElem?_replicate]
    simp [List.mem_map, mem_entries]
    exact exists_comm

/-! ## Adding and removing keys -/

theorem le_grownSize (used : Nat) : used ≤ grownSize used := by
  unfold grownSize
  split <;> omega

theorem empty_sound : empty.Sound := by
  refine ⟨⟨fun hj => ?_, fun hj => ?_⟩, ⟨3, rfl⟩, ?_, ?_, by decide⟩
  all_goals simp_all [empty, Array.getElem?_replicate, Slot.isFree, Slot.isHeld]

theorem not_mem_keys_empty (v : Value) : v ∉ empty.keys := by
  rw [mem_keys]
  simp [empty, Array.getElem?_replicate]

section Insert

variable {t : KeyTable} {key : Value}

/-- Inserting a text keeps a table sound and adds the text to its keys. -/
theorem Sound.insert (ht : t.Sound) (hkey : key.isStr = true) :
    (t.insert key.hash key).Sound ∧
      ∀ v, v ∈ (t.insert key.hash key).keys ↔ v ∈ t.keys ∨ v = key := by
  unfold KeyTable.insert
  cases hp : t.probe key.hash key with
  | present j =>
    -- a text already held leaves the table as it is
    obtain ⟨h, hj⟩ := ht.probe_present hkey hp
    refine ⟨ht, fun v => ⟨.inl, ?_⟩⟩
    rintro (hv | rfl)
    · exact hv
    · exact mem_keys.2 ⟨j, h, hj⟩
  | absent j r =>
    obtain ⟨hj, hslot, hreach⟩ := ht.probe_absent hp
    have hkeyed := ht.keyed.setHeld hkey (ht.not_held_of_absent hp) hj hreach
    have hnotheld : ∀ (h : UInt64) (k : Value), t.slots[j]? ≠ some (.held h k) := by
      intro h k hh
      rcases hslot with ⟨hs, -⟩ | ⟨hs, -⟩ <;> rw [hs] at hh <;> cases hh
    have hkeys : ∀ v, (∃ (i : Nat) (h : UInt64),
        (t.slots.set! j (.held key.hash key))[i]? = some (.held h v)) ↔ v ∈ t.keys ∨ v = key := by
      intro v
      rw [held_set!_iff hj hnotheld, mem_keys]
    have hsize : (t.slots.set! j (.held key.hash key)).size = t.slots.size := by simp
    rcases hslot with ⟨hs, rfl⟩ | ⟨hs, rfl⟩
    · -- a free slot is taken: one more taken slot, and the table may grow
      obtain ⟨hj', hsj⟩ := Array.getElem?_eq_some_iff.1 hs
      have hfill := countP_set!_succ (fun s => !s.isFree) hj (a := .held key.hash key)
        (by rw [hsj]; rfl) rfl
      have hused := countP_set!_succ Slot.isHeld hj (a := .held key.hash key) (by rw [hsj]; rfl) rfl
      have hfill0 := ht.fill
      have hused0 := ht.used
      dsimp only
      split
      · rename_i hroom
        refine ⟨⟨hkeyed, hsize ▸ ht.pow, by simp only; omega, by simp only; omega, ?_⟩,
          fun v => by rw [mem_keys]; exact hkeys v⟩
        simp only [mask, hsize] at hroom ⊢
        omega
      · obtain ⟨hsound, hkeys'⟩ :=
          Keyed.resize (t := ⟨t.slots.set! j (.held key.hash key), t.fill + 1, t.used + 1⟩)
            hkeyed (by simp only; omega) (le_grownSize _)
        exact ⟨hsound, fun v => by rw [hkeys', mem_keys]; exact hkeys v⟩
    · -- a vacated slot is taken again: no more taken slots
      obtain ⟨hj', hsj⟩ := Array.getElem?_eq_some_iff.1 hs
      have hfill := countP_set!_same (fun s => !s.isFree) hj (a := .held key.hash key)
        (by rw [hsj]; rfl)
      have hused := countP_set!_succ Slot.isHeld hj (a := .held key.hash key) (by rw [hsj]; rfl) rfl
      have hused0 := ht.used
      refine ⟨⟨hkeyed, hsize ▸ ht.pow, by simp only; rw [hfill]; exact ht.fill, by simp only; omega,
        by simp only; rw [hsize]; exact ht.room⟩, fun v => by rw [mem_keys]; exact hkeys v⟩

/-- Erasing a text keeps a table sound and removes the text from its keys. -/
theorem Sound.erase (ht : t.Sound) (hkey : key.isStr = true) :
    (t.erase key.hash key).Sound ∧
      ∀ v, v ∈ (t.erase key.hash key).keys ↔ v ∈ t.keys ∧ v ≠ key := by
  unfold KeyTable.erase
  cases hp : t.probe key.hash key with
  | present j =>
    obtain ⟨h, hj⟩ := ht.probe_present hkey hp
    obtain ⟨hlt, hsj⟩ := Array.getElem?_eq_some_iff.1 hj
    have hfill := countP_set!_same (fun s => !s.isFree) hlt (a := .vacated) (by rw [hsj]; rfl)
    have hused := countP_set!_pred Slot.isHeld hlt (a := .vacated) (by rw [hsj]; rfl) rfl
    have hused0 := ht.used
    refine ⟨⟨ht.keyed.setVacated, by simpa using ht.pow, by simp only; rw [hfill]; exact ht.fill,
      by simp only; omega, by simpa using ht.room⟩, fun v => ?_⟩
    rw [mem_keys, mem_keys]
    exact held_vacated_iff hj ht.keyed
  | absent j r =>
    -- a text held nowhere is not among the keys
    refine ⟨ht, fun v => ⟨fun hv => ⟨hv, ?_⟩, fun hv => hv.1⟩⟩
    rintro rfl
    obtain ⟨i, h, hi⟩ := mem_keys.1 hv
    exact ht.not_held_of_absent hp i h hi

end Insert

theorem Sound.resize {t : KeyTable} (ht : t.Sound) {n : Nat} (hn : t.used ≤ n) :
    (t.resize n).Sound ∧ ∀ v, v ∈ (t.resize n).keys ↔ v ∈ t.keys :=
  Keyed.resize ht.keyed ht.used hn

theorem Sound.reserve {t t' : KeyTable} (ht : t.Sound) {n : Nat}
    (h : t' = if (t.fill + n) * 5 ≥ t.mask * 3 then t.resize ((t.used + n) * 2) else t) :
    t'.Sound ∧ (∀ v, v ∈ t'.keys ↔ v ∈ t.keys) ∧ n < t'.slots.size := by
  subst h
  split
  · obtain ⟨hs, hk⟩ := ht.resize (n := (t.used + n) * 2) (by omega)
    refine ⟨hs, hk, ?_⟩
    have := lt_sizeAbove ((t.used + n) * 2)
    rw [size_resize]
    omega
  · rename_i hroom
    refine ⟨ht, fun v => Iff.rfl, ?_⟩
    simp only [mask] at hroom
    omega

theorem Sound.foldl_add : ∀ (vs : List Value) {t : KeyTable}, t.Sound → (∀ v ∈ vs, v.isStr = true) →
    (vs.foldl add t).Sound ∧ ∀ v, v ∈ (vs.foldl add t).keys ↔ v ∈ t.keys ∨ v ∈ vs
  | [], t, ht, _ => ⟨ht, fun v => by simp⟩
  | w :: vs, t, ht, hvs => by
    obtain ⟨ht', hkeys'⟩ := ht.insert (hvs w List.mem_cons_self)
    obtain ⟨htf, hkeysf⟩ := Sound.foldl_add vs ht' fun v hv => hvs v (List.mem_cons_of_mem w hv)
    refine ⟨htf, fun v => ?_⟩
    rw [List.foldl_cons]
    change v ∈ (vs.foldl add (t.insert w.hash w)).keys ↔ _
    rw [hkeysf, hkeys', List.mem_cons]
    tauto

theorem ofList_sound {vs : List Value} (hvs : ∀ v ∈ vs, v.isStr = true) :
    (ofList vs).Sound ∧ ∀ v, v ∈ (ofList vs).keys ↔ v ∈ vs := by
  obtain ⟨ht, hkeys⟩ := Sound.foldl_add vs empty_sound hvs
  exact ⟨ht, fun v => by rw [ofList, hkeys]; simp [not_mem_keys_empty]⟩

theorem Sound.addKeys {t : KeyTable} (ht : t.Sound) {vs : List Value}
    (hvs : ∀ v ∈ vs, v.isStr = true) :
    (t.addKeys vs).Sound ∧ ∀ v, v ∈ (t.addKeys vs).keys ↔ v ∈ t.keys ∨ v ∈ vs := by
  unfold KeyTable.addKeys
  dsimp only
  generalize hr : (if (t.fill + vs.length) * 5 ≥ t.mask * 3 then
    t.resize ((t.used + vs.length) * 2) else t) = t'
  obtain ⟨ht', hkeys', -⟩ := ht.reserve hr.symm
  obtain ⟨htf, hkeysf⟩ := Sound.foldl_add vs ht' hvs
  exact ⟨htf, fun v => by rw [hkeysf, hkeys']⟩

/-! ## Operations on whole tables -/

section Combine

variable {t other : KeyTable}

theorem Sound.keys_eq_nil (ht : t.Sound) (h0 : t.used = 0) : t.keys = [] := by
  have hlen := length_entries t
  have hused := ht.used
  rw [← List.length_eq_zero_iff, keys, List.length_map, hlen]
  omega

theorem Sound.free_of_fill (ht : t.Sound) (h0 : t.fill = 0) {i : Nat} {s : Slot}
    (hi : t.slots[i]? = some s) : s = .free := by
  have hfill := ht.fill
  have hall := Array.countP_eq_zero.1 (Nat.le_zero.1 (h0 ▸ hfill)) s
    (Array.mem_iff_getElem?.2 ⟨i, hi⟩)
  cases s <;> simp_all [Slot.isFree]

theorem Sound.foldl_addWhen (step : KeyTable → UInt64 × Value → KeyTable) (keep : Value → Prop)
    (hstep : ∀ acc key, acc.Sound → key.isStr = true →
      (step acc (key.hash, key)).Sound ∧
        ∀ v, v ∈ (step acc (key.hash, key)).keys ↔ v ∈ acc.keys ∨ v = key ∧ keep v) :
    ∀ (es : List (UInt64 × Value)) {t : KeyTable}, t.Sound →
      (∀ e ∈ es, e.2.isStr = true ∧ e.1 = e.2.hash) →
      (es.foldl step t).Sound ∧
        ∀ v, v ∈ (es.foldl step t).keys ↔ v ∈ t.keys ∨ v ∈ es.map Prod.snd ∧ keep v
  | [], t, ht, _ => ⟨ht, fun v => by simp⟩
  | (h, key) :: es, t, ht, hes => by
    obtain ⟨hs, hh⟩ := hes (h, key) List.mem_cons_self
    simp only at hs hh
    subst hh
    obtain ⟨ht', hkeys'⟩ := hstep t key ht hs
    obtain ⟨htf, hkeysf⟩ := Sound.foldl_addWhen step keep hstep es ht'
      fun e' he' => hes e' (List.mem_cons_of_mem _ he')
    refine ⟨htf, fun v => ?_⟩
    rw [List.foldl_cons, hkeysf, hkeys', List.map_cons, List.mem_cons]
    constructor
    · rintro ((h | ⟨rfl, hk⟩) | ⟨hv, hk⟩)
      exacts [.inl h, .inr ⟨.inl rfl, hk⟩, .inr ⟨.inr hv, hk⟩]
    · rintro (h | ⟨rfl | hv, hk⟩)
      exacts [.inl (.inl h), .inl (.inr ⟨rfl, hk⟩), .inr ⟨hv, hk⟩]

theorem Sound.insert_when {acc : KeyTable} (hacc : acc.Sound) {key : Value}
    (hkey : key.isStr = true) {c : Bool} {keep : Value → Prop} (hc : c = true ↔ keep key) :
    (if c then acc.insert key.hash key else acc).Sound ∧
      ∀ v, v ∈ (if c then acc.insert key.hash key else acc).keys ↔
        v ∈ acc.keys ∨ v = key ∧ keep v := by
  cases c with
  | true =>
    obtain ⟨hs, hk⟩ := hacc.insert hkey
    refine ⟨hs, fun v => (hk v).trans ?_⟩
    constructor
    · rintro (h | rfl)
      exacts [.inl h, .inr ⟨rfl, hc.1 rfl⟩]
    · rintro (h | ⟨rfl, -⟩)
      exacts [.inl h, .inr rfl]
  | false =>
    refine ⟨hacc, fun v => ⟨.inl, ?_⟩⟩
    rintro (h | ⟨rfl, hk⟩)
    exacts [h, absurd (hc.2 hk) Bool.false_ne_true]

theorem Sound.foldl_erase :
    ∀ (es : List (UInt64 × Value)) {t : KeyTable}, t.Sound →
      (∀ e ∈ es, e.2.isStr = true ∧ e.1 = e.2.hash) →
      let t' := es.foldl (fun acc (h, k) => acc.erase h k) t
      t'.Sound ∧ ∀ v, v ∈ t'.keys ↔ v ∈ t.keys ∧ v ∉ es.map Prod.snd
  | [], t, ht, _ => ⟨ht, fun v => by simp⟩
  | (h, key) :: es, t, ht, hes => by
    obtain ⟨hs, hh⟩ := hes (h, key) List.mem_cons_self
    simp only at hs hh
    subst hh
    obtain ⟨ht', hkeys'⟩ := ht.erase hs
    obtain ⟨htf, hkeysf⟩ := Sound.foldl_erase es ht' fun e' he' => hes e' (List.mem_cons_of_mem _ he')
    refine ⟨htf, fun v => ?_⟩
    rw [List.foldl_cons]
    refine (hkeysf v).trans ?_
    rw [hkeys', List.map_cons, List.mem_cons]
    tauto

/-- Merging sound tables gives a sound table holding the keys of both. -/
theorem Sound.merge (ht : t.Sound) (ho : other.Sound) :
    (t.merge other).Sound ∧ ∀ v, v ∈ (t.merge other).keys ↔ v ∈ t.keys ∨ v ∈ other.keys := by
  have hentry : ∀ e ∈ other.entries, e.2.isStr = true ∧ e.1 = e.2.hash :=
    fun e he => ho.keyed.entry he
  unfold KeyTable.merge
  split
  · -- a table without keys adds none
    rename_i h0
    exact ⟨ht, fun v => by simp [ho.keys_eq_nil h0]⟩
  dsimp only
  generalize hr : (if (t.fill + other.used) * 5 ≥ t.mask * 3 then
    t.resize ((t.used + other.used) * 2) else t) = t'
  obtain ⟨ht', hkeys', hroom⟩ := ht.reserve hr.symm
  split
  · -- an empty table of the same size takes the other's slots
    rename_i hsame
    simp only [Bool.and_eq_true, decide_eq_true_eq] at hsame
    have hnil : t'.keys = [] := by
      apply List.eq_nil_iff_forall_not_mem.2
      intro v hv
      obtain ⟨i, h, hi⟩ := mem_keys.1 hv
      cases ht'.free_of_fill hsame.1.1 hi
    exact ⟨ho, fun v => by simp [← hkeys', hnil]⟩
  split
  · -- an empty table takes the other's keys, placed in slot order
    rename_i h0
    have hnv : NoVacated t'.slots := fun i hi => by cases ht'.free_of_fill h0 hi
    have hcount0 : t'.slots.countP Slot.isHeld = 0 := by
      apply Array.countP_eq_zero.2
      intro s hs
      obtain ⟨i, hi⟩ := Array.mem_iff_getElem?.1 hs
      rw [ht'.free_of_fill h0 hi]
      decide
    have hlen := length_entries other
    have hused := ho.used
    obtain ⟨hkf, hnvf, hsizef, hcountf, hheldf⟩ := Keyed.placeAll other.entries ht'.keyed hnv
      ht'.pow (by omega) hentry (by simpa [keys] using ho.keyed.nodup_keys)
      (fun e _ i h hi => by cases ht'.free_of_fill h0 hi)
    refine ⟨⟨hkf, hsizef ▸ ht'.pow, ?_, ?_, ?_⟩, fun v => ?_⟩
    · simp only
      rw [countP_taken_of_noVacated hnvf]
      omega
    · simp only
      omega
    · simp only
      omega
    · rw [mem_keys, hheldf, ← hkeys', mem_keys]
      rfl
  · -- a table with keys takes the other's one by one
    obtain ⟨hs, hk⟩ := Sound.foldl_addWhen (fun acc (h, k) => acc.insert h k) (fun _ => True)
      (fun acc key hacc hstr => by
        obtain ⟨hs, hk⟩ := hacc.insert hstr
        exact ⟨hs, fun v => by rw [hk]; simp⟩)
      other.entries ht' hentry
    exact ⟨hs, fun v => by rw [hk, hkeys']; simp [keys]⟩

theorem Sound.copy (ht : t.Sound) : t.copy.Sound ∧ ∀ v, v ∈ t.copy.keys ↔ v ∈ t.keys := by
  obtain ⟨hs, hk⟩ := empty_sound.merge ht
  exact ⟨hs, fun v => by rw [KeyTable.copy, hk]; simp [not_mem_keys_empty]⟩

/-- The intersection of sound tables is sound and holds the keys both hold. -/
theorem Sound.inter (ht : t.Sound) (ho : other.Sound) :
    (t.inter other).Sound ∧ ∀ v, v ∈ (t.inter other).keys ↔ v ∈ t.keys ∧ v ∈ other.keys := by
  -- the keys of the smaller table are added when the larger holds them
  have hkeep : ∀ large small : KeyTable, large.Sound → small.Sound →
      let r := small.entries.foldl
        (fun acc (h, k) => if large.contains h k then acc.insert h k else acc) empty
      r.Sound ∧ ∀ v, v ∈ r.keys ↔ v ∈ small.keys ∧ v ∈ large.keys := by
    intro large small hl hs
    obtain ⟨hr, hk⟩ := Sound.foldl_addWhen
      (fun acc (h, k) => if large.contains h k then acc.insert h k else acc) (· ∈ large.keys)
      (fun acc key hacc hstr => hacc.insert_when hstr (hl.contains_iff hstr))
      small.entries empty_sound fun e he => hs.keyed.entry he
    exact ⟨hr, fun v => by rw [hk]; simp only [not_mem_keys_empty, false_or]; rfl⟩
  unfold KeyTable.inter
  by_cases hc : other.used > t.used
  · rw [if_pos hc]
    obtain ⟨hr, hk⟩ := hkeep other t ho ht
    exact ⟨hr, hk⟩
  · rw [if_neg hc]
    obtain ⟨hr, hk⟩ := hkeep t other ht ho
    exact ⟨hr, fun v => (hk v).trans and_comm⟩

theorem Sound.eraseAll (ht : t.Sound) (ho : other.Sound) :
    (t.eraseAll other).Sound ∧ ∀ v, v ∈ (t.eraseAll other).keys ↔ v ∈ t.keys ∧ v ∉ other.keys := by
  unfold KeyTable.eraseAll
  dsimp only
  -- the keys erased are the other's, or those of the other that the table holds
  have hsel : ∀ o, (if other.used / 8 > t.used then t.inter other else other) = o →
      o.Sound ∧ ∀ v ∈ t.keys, v ∈ o.keys ↔ v ∈ other.keys := by
    rintro o rfl
    split
    · obtain ⟨hs, hk⟩ := ht.inter ho
      exact ⟨hs, fun v hv => by rw [hk]; exact and_iff_right hv⟩
    · exact ⟨ho, fun _ _ => Iff.rfl⟩
  generalize hsel_eq : (if other.used / 8 > t.used then t.inter other else other) = o
  obtain ⟨hos, hokeys⟩ := hsel o hsel_eq
  obtain ⟨hts, htkeys⟩ := Sound.foldl_erase o.entries ht fun e he => hos.keyed.entry he
  have hkeys : ∀ v, v ∈ t.keys ∧ v ∉ o.entries.map Prod.snd ↔ v ∈ t.keys ∧ v ∉ other.keys := by
    intro v
    constructor
    · rintro ⟨hv, hno⟩
      exact ⟨hv, fun h => hno ((hokeys v hv).2 h)⟩
    · rintro ⟨hv, hno⟩
      exact ⟨hv, fun h => hno ((hokeys v hv).1 h)⟩
  split
  · exact ⟨hts, fun v => (htkeys v).trans (hkeys v)⟩
  · -- a table with many vacated slots is placed again
    obtain ⟨hs, hk⟩ := hts.resize (le_grownSize _)
    exact ⟨hs, fun v => ((hk v).trans (htkeys v)).trans (hkeys v)⟩

/-- The difference of sound tables is sound and holds the keys of the first that the second
lacks. -/
theorem Sound.diff (ht : t.Sound) (ho : other.Sound) :
    (t.diff other).Sound ∧ ∀ v, v ∈ (t.diff other).keys ↔ v ∈ t.keys ∧ v ∉ other.keys := by
  unfold KeyTable.diff
  split
  · obtain ⟨hc, hck⟩ := ht.copy
    obtain ⟨hs, hk⟩ := hc.eraseAll ho
    exact ⟨hs, fun v => by rw [hk, hck]⟩
  · obtain ⟨hr, hk⟩ := Sound.foldl_addWhen
      (fun acc (h, k) => if other.contains h k then acc else acc.insert h k) (· ∉ other.keys)
      (fun acc key hacc hstr => by
        -- a key is inserted when the other table does not hold it
        have hflip : (if other.contains key.hash key then acc else acc.insert key.hash key) =
            if !other.contains key.hash key then acc.insert key.hash key else acc := by
          cases other.contains key.hash key <;> rfl
        dsimp only
        rw [hflip]
        exact hacc.insert_when hstr
          (by rw [Bool.not_eq_true', Bool.eq_false_iff, ne_eq, ho.contains_iff hstr]))
      t.entries empty_sound fun e he => ht.keyed.entry he
    exact ⟨hr, fun v => by rw [hk]; simp only [not_mem_keys_empty, false_or]; rfl⟩

end Combine

end KeyTable

end Backtest.Document

