import Inventory.Proofs.Schema

/-!
# Lower case twice

A text in lower case can hold characters that have a lower-case form of their own only if that form
is beyond ASCII. So a name in lower case is reached by lowering twice exactly if it is reached by
lowering once.
-/

namespace Inventory.Text

/-! ## Single characters -/

/-- The sign for kelvin, whose lower-case form is the letter k. No other character beyond ASCII
has a form within ASCII, and no character has the sign as its form. -/
def kelvin : Nat := 0x212a

/-- Where the characters of a run go: beyond ASCII, but for the sign for kelvin, to characters that
are neither this sign nor capital letters of ASCII. -/
def CaseRun.isBeyond (r : CaseRun) : Bool :=
  let first := (r.first : Int) + r.shift
  let last := (r.last : Int) + r.shift
  (128 ≤ first || (r.first == kelvin && r.last == kelvin && first == 107)) &&
    (last < kelvin || (kelvin : Int) < first) &&
    (last < 0xd800 || (0xdfff < first && last < 0x110000))

theorem lowerRuns_isBeyond : ∀ r ∈ lowerRuns, r.isBeyond := by
  decide +kernel

/-- Where a run leads is a character beyond ASCII other than the sign for kelvin, unless the run is
that of the sign itself. -/
theorem shift?_lowerRuns {n m : Nat} (h : CaseRun.shift? lowerRuns n = some m) :
    (Char.ofNat m).toNat = m ∧ m ≠ kelvin ∧ (128 ≤ m ∨ n = kelvin ∧ m = 107) := by
  obtain ⟨r, hr, rfl⟩ := Option.map_eq_some_iff.1 h
  have hbeyond := lowerRuns_isBeyond r (List.mem_of_find?_eq_some hr)
  have hmeets := List.find?_some hr
  simp only [CaseRun.isBeyond, Bool.and_eq_true, Bool.or_eq_true, decide_eq_true_eq,
    beq_iff_eq] at hbeyond hmeets
  have hkelvin : kelvin = 0x212a := rfl
  have hchar : ((n : Int) + r.shift).toNat.isValidChar := by
    unfold Nat.isValidChar
    omega
  refine ⟨?_, by omega, by omega⟩
  rw [Char.ofNat, dif_pos hchar]
  rfl

/-- The sign for kelvin has a lower-case form. -/
theorem shift?_kelvin : CaseRun.shift? lowerRuns kelvin = some 107 := by
  decide +kernel

/-- What a character in a text in lower case can be: neither a capital letter of ASCII nor the sign
for kelvin. -/
def IsLowered (c : Char) : Prop :=
  c.toLower = c ∧ c.toNat ≠ kelvin

theorem toLower_of_beyond {c : Char} (h : 128 ≤ c.toNat) : c.toLower = c := by
  unfold Char.toLower
  split
  · next hc =>
      have hle : c.toNat ≤ 90 := UInt32.le_iff_toNat_le.1 hc.2
      omega
  · rfl

theorem isLowered_of_beyond {c : Char} (h : 128 ≤ c.toNat) (hk : c.toNat ≠ kelvin) :
    IsLowered c :=
  ⟨toLower_of_beyond h, hk⟩

theorem isLowered_of_mem_lowerChar {c d : Char} (h : d ∈ lowerChar c) : IsLowered d := by
  unfold lowerChar at h
  split at h
  · next hc =>
      rw [List.mem_singleton.1 h]
      have hascii : isAscii c.toLower := isAscii_toLower hc
      simp only [isAscii, decide_eq_true_eq] at hascii
      exact ⟨toLower_toLower c, by simp only [kelvin]; omega⟩
  · next hc =>
      simp only [isAscii, decide_eq_true_eq] at hc
      unfold mapped at h
      split at h
      · next points hpoints =>
          simp only [lowerExpansions, List.lookup_cons, List.lookup_nil] at hpoints
          split at hpoints <;> cases hpoints
          rcases List.mem_cons.1 h with rfl | h
          · exact ⟨by decide, by decide⟩
          · rw [List.mem_singleton.1 h]
            exact ⟨by decide, by decide⟩
      · rw [List.mem_singleton.1 h]
        cases hshift : CaseRun.shift? lowerRuns c.toNat with
        | none =>
            refine isLowered_of_beyond (by simpa using hc) ?_
            rintro hk
            rw [Option.map_none, Option.getD_none] at hk
            rw [hk, shift?_kelvin] at hshift
            cases hshift
        | some m =>
            obtain ⟨hm, hk, hbeyond⟩ := shift?_lowerRuns hshift
            rw [Option.map_some, Option.getD_some]
            rcases hbeyond with hbeyond | ⟨-, rfl⟩
            · exact isLowered_of_beyond (by omega) (by omega)
            · exact ⟨by decide, by decide⟩

/-- Only the sign for kelvin goes from beyond ASCII to ASCII. -/
theorem isAscii_of_lowerChar {c : Char} (hc : c.toNat ≠ kelvin)
    (h : ∀ d ∈ lowerChar c, isAscii d) : isAscii c := by
  refine Decidable.byContradiction fun hnot => ?_
  rw [lowerChar, if_neg hnot] at h
  unfold mapped at h
  split at h
  · next points hpoints =>
      simp only [lowerExpansions, List.lookup_cons, List.lookup_nil] at hpoints
      split at hpoints <;> cases hpoints
      exact absurd (h (Char.ofNat 775) (by simp)) (by decide)
  · have himage := h _ List.mem_cons_self
    cases hshift : CaseRun.shift? lowerRuns c.toNat with
    | none =>
        rw [hshift] at himage
        exact hnot himage
    | some m =>
        obtain ⟨hm, -, hbeyond⟩ := shift?_lowerRuns hshift
        rw [hshift, Option.map_some, Option.getD_some, isAscii, hm, decide_eq_true_eq] at himage
        rcases hbeyond with hbeyond | ⟨hk, -⟩
        · omega
        · exact hc hk

/-! ## Texts -/

theorem isLowered_of_mem_lowerAfter (cs : List Char) :
    ∀ before, ∀ c ∈ lowerAfter before cs, IsLowered c := by
  induction cs with
  | nil => exact fun _ _ h => nomatch h
  | cons c rest ih =>
      intro before d hd
      rcases List.mem_append.1 hd with hd | hd
      · split at hd
        · rw [List.mem_singleton.1 hd]
          split
          · exact ⟨by decide, by decide⟩
          · exact ⟨by decide, by decide⟩
        · exact isLowered_of_mem_lowerChar hd
      · exact ih _ d hd

theorem isAscii_of_lowerAfter (cs : List Char) :
    ∀ before, (∀ c ∈ cs, c.toNat ≠ kelvin) → (∀ d ∈ lowerAfter before cs, isAscii d) →
      ∀ c ∈ cs, isAscii c := by
  induction cs with
  | nil => exact fun _ _ _ _ h => nomatch h
  | cons c rest ih =>
      intro before hkelvin hascii d hd
      rcases List.mem_cons.1 hd with rfl | hd
      · refine isAscii_of_lowerChar (hkelvin d hd) fun x hx => ?_
        by_cases hsigma : d = 'Σ'
        · -- both forms of sigma are beyond ASCII
          rw [lowerAfter, if_pos hsigma] at hascii
          have hform := hascii _ (List.mem_append_left _ List.mem_cons_self)
          split at hform <;> exact absurd hform (by decide)
        · rw [lowerAfter, if_neg hsigma] at hascii
          exact hascii x (List.mem_append_left _ hx)
      · exact ih (c :: before) (fun x hx => hkelvin x (List.mem_cons_of_mem _ hx))
          (fun x hx => hascii x (List.mem_append_right _ hx)) d hd

/-- A name of ASCII characters that is reached by lowering a text twice is reached by lowering it
once. -/
theorem lower_eq_of_lower_lower {s name : String} (hname : ∀ c ∈ name.toList, isAscii c)
    (h : lower (lower s) = name) : lower s = name := by
  have hlowered : ∀ c ∈ (lower s).toList, IsLowered c := by
    intro c hc
    rw [lower, String.toList_ofList] at hc
    exact isLowered_of_mem_lowerAfter _ _ c hc
  have hascii : ∀ c ∈ (lower s).toList, isAscii c := by
    refine isAscii_of_lowerAfter _ [] (fun c hc => (hlowered c hc).2) fun d hd => hname d ?_
    rw [← h, lower, String.toList_ofList]
    exact hd
  rw [← h, lower_of_ascii hascii, List.map_congr_left fun c hc => (hlowered c hc).1,
    List.map_id', String.ofList_toList]

/-! ## Comparing without regard to case -/

/-- The sign for kelvin leaves the letter k. -/
theorem mem_lowerAfter_of_kelvin {cs : List Char} {c : Char} (hc : c.toNat = kelvin) :
    ∀ before, c ∈ cs → 'k' ∈ lowerAfter before cs := by
  obtain rfl : c = Char.ofNat kelvin := by rw [← hc, Char.ofNat_toNat]
  induction cs with
  | nil => exact fun _ h => nomatch h
  | cons d rest ih =>
      intro before hmem
      rw [lowerAfter, List.mem_append]
      rcases List.mem_cons.1 hmem with rfl | hmem
      · have hform : 'k' ∈ lowerChar (Char.ofNat kelvin) := by decide +kernel
        exact .inl (by rwa [if_neg (by decide)])
      · exact .inr (ih _ hmem)

/-- A text of ASCII characters without the letter k is the lower-case form of just the texts that
spell it in ASCII in some case. -/
theorem lower_eq_iff {s name : String} (hname : ∀ c ∈ name.toList, isAscii c)
    (hk : 'k' ∉ name.toList) : lower s = name ↔ s.toList.map Char.toLower = name.toList := by
  constructor
  · intro h
    have hlist : lowerAfter [] s.toList = name.toList := by
      rw [← h, lower, String.toList_ofList]
    have hascii : ∀ c ∈ s.toList, isAscii c := by
      refine isAscii_of_lowerAfter _ [] (fun c hc hkelvin => hk ?_) fun d hd => hname d ?_
      · rw [← hlist]
        exact mem_lowerAfter_of_kelvin hkelvin [] hc
      · rwa [← hlist]
    rw [← h, lower_of_ascii hascii, String.toList_ofList]
  · intro h
    have hascii : ∀ c ∈ s.toList, isAscii c := by
      intro c hc
      have hform : isAscii c.toLower := by
        refine hname _ ?_
        rw [← h]
        exact List.mem_map_of_mem hc
      refine Decidable.byContradiction fun hnot => ?_
      rw [toLower_of_beyond (by simpa [isAscii] using hnot)] at hform
      exact hnot hform
    rw [lower_of_ascii hascii, h, String.ofList_toList]

end Inventory.Text
