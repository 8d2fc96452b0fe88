import Inventory.Key
import Inventory.Proofs.Blank
import Mathlib.Data.List.Nodup

/-!
# Keys and their numbers

Writing a number goes from its last symbol to its first, reading goes the other way. Both are
followed with the symbols that are still to come, or that were written before, as a parameter: a
number that is written in front of some symbols is read as where the reading of these starts.
-/

namespace Inventory.Key

/-! ## The symbols and their values -/

theorem length_alphabet : alphabet.length = 64 := rfl

theorem nodup_alphabet : alphabet.Nodup := by decide +kernel

theorem symbol_eq_getElem {v : Nat} (h : v < alphabet.length) : symbol v = alphabet[v] := by
  rw [symbol, List.getD_eq_getElem?_getD, List.getElem?_eq_getElem h, Option.getD_some]

theorem symbol_zero : symbol 0 = '0' := rfl

theorem symbol_mem (v : Nat) : symbol v ∈ alphabet := by
  have hmem {u : Nat} (h : u < alphabet.length) : symbol u ∈ alphabet := by
    rw [symbol_eq_getElem h]
    exact List.getElem_mem h
  rcases Nat.lt_or_ge v alphabet.length with h | h
  · exact hmem h
  · rw [symbol, List.getD_eq_getElem?_getD, List.getElem?_eq_none h, Option.getD_none,
      ← symbol_zero]
    exact hmem (by rw [length_alphabet]; decide)

/-- Reading a symbol is the inverse of writing one. -/
theorem symbolValue?_eq_some_iff {c : Char} {v : Nat} :
    symbolValue? c = some v ↔ v < 64 ∧ symbol v = c := by
  rw [symbolValue?, List.findIdx?_eq_some_iff_getElem, ← length_alphabet]
  constructor
  · rintro ⟨hlt, heq, -⟩
    exact ⟨hlt, (symbol_eq_getElem hlt).trans (eq_of_beq heq)⟩
  · rintro ⟨hlt, rfl⟩
    refine ⟨hlt, by rw [symbol_eq_getElem hlt, beq_self_eq_true], fun j hj heq => ?_⟩
    -- No symbol stands twice.
    rw [symbol_eq_getElem hlt] at heq
    exact absurd ((nodup_alphabet.getElem_inj_iff).1 (eq_of_beq heq)) (Nat.ne_of_lt hj)

theorem symbolValue?_symbol {v : Nat} (h : v < 64) : symbolValue? (symbol v) = some v :=
  symbolValue?_eq_some_iff.2 ⟨h, rfl⟩

theorem exists_symbolValue?_iff {c : Char} : (∃ v, symbolValue? c = some v) ↔ c ∈ alphabet := by
  constructor
  · rintro ⟨v, hv⟩
    obtain ⟨-, rfl⟩ := symbolValue?_eq_some_iff.1 hv
    exact symbol_mem v
  · intro h
    obtain ⟨v, hv, rfl⟩ := List.getElem_of_mem h
    exact ⟨v, symbolValue?_eq_some_iff.2 ⟨length_alphabet ▸ hv, symbol_eq_getElem hv⟩⟩

theorem symbol_eq_zero_iff {v : Nat} (h : v < 64) : symbol v = '0' ↔ v = 0 := by
  constructor
  · intro heq
    have hv := symbolValue?_symbol h
    rw [heq, ← symbol_zero, symbolValue?_symbol (by decide)] at hv
    exact (Option.some.inj hv).symm
  · rintro rfl
    exact symbol_zero

theorem not_isBlank_of_mem {c : Char} (h : c ∈ alphabet) : Text.isBlank c = false := by
  have hall : alphabet.all (fun c => !Text.isBlank c) = true := by decide +kernel
  simpa using List.all_eq_true.1 hall c h

/-! ## Written numbers -/

theorem symbols_zero (after : List Char) : symbols 0 after = after := by
  rw [symbols, if_pos rfl]

theorem symbols_of_ne_zero {n : Nat} (h : n ≠ 0) (after : List Char) :
    symbols n after = symbols (n / 64) (symbol (n % 64) :: after) := by
  rw [symbols, if_neg h]

/-- A number and one more symbol. -/
theorem symbols_mul_add {m v : Nat} (hv : v < 64) (h : m * 64 + v ≠ 0) (after : List Char) :
    symbols (m * 64 + v) after = symbols m (symbol v :: after) := by
  rw [symbols_of_ne_zero h, show (m * 64 + v) / 64 = m by omega,
    show (m * 64 + v) % 64 = v by omega]

theorem mem_symbols {n : Nat} {after : List Char} {c : Char} (h : c ∈ symbols n after) :
    c ∈ alphabet ∨ c ∈ after := by
  induction n, after using symbols.induct with
  | case1 after => exact .inr (symbols_zero after ▸ h)
  | case2 n after hn ih =>
      rw [symbols_of_ne_zero hn] at h
      rcases ih h with hc | hc
      · exact .inl hc
      · rcases List.mem_cons.1 hc with rfl | hc
        · exact .inl (symbol_mem _)
        · exact .inr hc

/-- The first symbol of a positive number is not that of zero. -/
theorem exists_symbols_eq_cons {n : Nat} (h : n ≠ 0) (after : List Char) :
    ∃ c rest, symbols n after = c :: rest ∧ c ≠ '0' := by
  induction n, after using symbols.induct with
  | case1 after => exact absurd rfl h
  | case2 n after hn ih =>
      rw [symbols_of_ne_zero hn]
      by_cases hq : n / 64 = 0
      · rw [hq, symbols_zero]
        exact ⟨_, _, rfl, fun heq =>
          absurd ((symbol_eq_zero_iff (Nat.mod_lt n (by decide))).1 heq) (by omega)⟩
      · exact ih hq

/-- Reading a number that was written in front of some symbols leaves these to be read. -/
theorem valueOf_symbols (n : Nat) (after : List Char) :
    valueOf 0 (symbols n after) = valueOf n after := by
  induction n, after using symbols.induct with
  | case1 after => rw [symbols_zero]
  | case2 n after hn ih =>
      rw [symbols_of_ne_zero hn, ih, valueOf, symbolValue?_symbol (Nat.mod_lt n (by decide))]
      dsimp only
      rw [Nat.div_add_mod']

/-! ## Read symbols -/

theorem exists_valueOf_eq_ok_iff {m : Nat} {cs : List Char} :
    (∃ n, valueOf m cs = .ok n) ↔ ∀ c ∈ cs, c ∈ alphabet := by
  induction cs generalizing m with
  | nil => exact iff_of_true ⟨m, rfl⟩ nofun
  | cons c rest ih =>
      rw [List.forall_mem_cons, ← exists_symbolValue?_iff, valueOf]
      cases hc : symbolValue? c with
      | none => exact iff_of_false nofun fun h => nomatch h.1
      | some v => exact ih.trans ⟨fun h => ⟨⟨v, rfl⟩, h⟩, fun h => h.2⟩

/-- After a positive number, writing what was read restores the symbols. -/
theorem symbols_of_valueOf {m n : Nat} {cs : List Char} (hm : m ≠ 0) (h : valueOf m cs = .ok n) :
    symbols n [] = symbols m cs := by
  induction cs generalizing m with
  | nil =>
      cases h
      rfl
  | cons c rest ih =>
      rw [valueOf] at h
      cases hc : symbolValue? c with
      | none =>
          rw [hc] at h
          cases h
      | some v =>
          rw [hc] at h
          obtain ⟨hv, rfl⟩ := symbolValue?_eq_some_iff.1 hc
          have hne : m * 64 + v ≠ 0 := by omega
          rw [ih hne h, symbols_mul_add hv hne]

/-- From the start, the symbols of zero in front of the first other one are lost. -/
theorem symbols_of_valueOf_zero {n : Nat} {cs : List Char} (h : valueOf 0 cs = .ok n) :
    symbols n [] = cs.dropWhile (· == '0') := by
  induction cs with
  | nil =>
      cases h
      exact symbols_zero []
  | cons c rest ih =>
      rw [valueOf] at h
      cases hc : symbolValue? c with
      | none =>
          rw [hc] at h
          cases h
      | some v =>
          rw [hc] at h
          obtain ⟨hv, rfl⟩ := symbolValue?_eq_some_iff.1 hc
          by_cases hzero : v = 0
          · subst hzero
            rw [List.dropWhile_cons_of_pos (by rw [symbol_zero]; rfl)]
            exact ih h
          · have hsymbol : ¬(symbol v == '0') = true := by
              rw [beq_iff_eq, symbol_eq_zero_iff hv]
              exact hzero
            have hne : 0 * 64 + v ≠ 0 := by omega
            rw [List.dropWhile_cons_of_neg (p := (· == '0')) hsymbol, symbols_of_valueOf hne h,
              symbols_mul_add hv hne, symbols_zero]

/-! ## Keys -/

/-- One or more symbols. -/
def IsWord (k : String) : Prop :=
  k ≠ "" ∧ ∀ c ∈ k.toList, c ∈ alphabet

/-- A key without the symbols of zero at its start, but for one where there is nothing else. -/
def withoutZeros (k : String) : String :=
  match k.toList.dropWhile (· == '0') with
  | [] => "0"
  | c :: rest => String.ofList (c :: rest)

/-- The keys that are written for numbers: a symbol of zero comes first only in the key of zero. -/
def IsCanonical (k : String) : Prop :=
  IsWord k ∧ (k.toList.head? = some '0' → k = "0")

theorem isWord_iff {k : String} : IsWord k ↔ k.toList ≠ [] ∧ ∀ c ∈ k.toList, c ∈ alphabet := by
  rw [IsWord, ne_eq, ne_eq, String.toList_eq_nil_iff]

theorem toList_ofNat_of_ne_zero {n : Nat} (h : n ≠ 0) : (ofNat n).toList = symbols n [] := by
  rw [ofNat, if_neg h, String.toList_ofList]

theorem ofNat_zero : ofNat 0 = "0" := by
  rw [ofNat, if_pos rfl, symbol_zero]

theorem encode_natCast (n : Nat) : encode n = .ok (ofNat n) := by
  rw [encode, if_neg (Int.not_lt.2 (Int.natCast_nonneg n)), Int.toNat_natCast]

theorem head?_ofNat (n : Nat) : (ofNat n).toList.head? = some '0' ↔ n = 0 := by
  by_cases hn : n = 0
  · subst hn
    exact iff_of_true (by rw [ofNat_zero]; rfl) rfl
  · obtain ⟨c, rest, heq, hc⟩ := exists_symbols_eq_cons hn []
    rw [toList_ofNat_of_ne_zero hn, heq]
    exact iff_of_false (fun h => hc (Option.some.inj h)) hn

theorem isWord_ofNat (n : Nat) : IsWord (ofNat n) := by
  rw [isWord_iff]
  by_cases hn : n = 0
  · subst hn
    rw [ofNat, if_pos rfl, String.toList_ofList]
    exact ⟨List.cons_ne_nil _ _, List.forall_mem_singleton.2 (symbol_mem 0)⟩
  · rw [toList_ofNat_of_ne_zero hn]
    obtain ⟨c, rest, heq, -⟩ := exists_symbols_eq_cons hn []
    exact ⟨heq ▸ List.cons_ne_nil c rest, fun c hc => (mem_symbols hc).resolve_right List.not_mem_nil⟩

theorem isCanonical_ofNat (n : Nat) : IsCanonical (ofNat n) :=
  ⟨isWord_ofNat n, fun h => by rw [(head?_ofNat n).1 h, ofNat_zero]⟩

/-- A word has no white space to be removed. -/
theorem trim_of_isWord {k : String} (h : IsWord k) : Text.trim k = k := by
  rw [Text.trim, Text.trimBy_of_none fun c hc => not_isBlank_of_mem (h.2 c hc),
    String.ofList_toList]

theorem withoutZeros_of_isCanonical {k : String} (h : IsCanonical k) : withoutZeros k = k := by
  rw [withoutZeros]
  cases hk : k.toList with
  | nil => exact absurd (String.toList_eq_nil_iff.1 hk) h.1.1
  | cons c rest =>
      by_cases hc : c = '0'
      · have hzero := h.2 (by rw [hk, hc]; rfl)
        rw [← hk, hzero]
        rfl
      · rw [List.dropWhile_cons_of_neg (by simpa using hc)]
        dsimp only
        rw [← hk, String.ofList_toList]

theorem decode_eq_ok_iff {k : String} {n : Nat} :
    decode k = .ok n ↔ Text.trim k ≠ "" ∧ valueOf 0 (Text.trim k).toList = .ok n := by
  rw [decode, ne_eq, ← String.toList_eq_nil_iff]
  cases htrim : (Text.trim k).toList with
  | nil => exact iff_of_false nofun fun h => h.1 rfl
  | cons c rest =>
      dsimp only
      cases hvalue : valueOf 0 (c :: rest) with
      | error d => exact iff_of_false nofun fun h => nomatch h.2
      | ok m => simp

theorem exists_decode_eq_ok_iff (k : String) :
    (∃ n, decode k = .ok n) ↔ IsWord (Text.trim k) := by
  simp only [decode_eq_ok_iff, exists_and_left, exists_valueOf_eq_ok_iff]
  exact Iff.rfl

/-- The key of a number that was read is what was read, without the symbols of zero. -/
theorem ofNat_of_decode {k : String} {n : Nat} (h : decode k = .ok n) :
    ofNat n = withoutZeros (Text.trim k) := by
  have hsymbols := symbols_of_valueOf_zero (decode_eq_ok_iff.1 h).2
  rw [withoutZeros, ← hsymbols]
  by_cases hn : n = 0
  · subst hn
    rw [symbols_zero]
    exact ofNat_zero
  · obtain ⟨c, rest, heq, -⟩ := exists_symbols_eq_cons hn []
    rw [heq, ofNat, if_neg hn, heq]

theorem valueOf_ofNat (n : Nat) : valueOf 0 (ofNat n).toList = .ok n := by
  by_cases hn : n = 0
  · subst hn
    rw [ofNat, if_pos rfl, String.toList_ofList, valueOf, symbolValue?_symbol (by decide)]
    rfl
  · rw [toList_ofNat_of_ne_zero hn, valueOf_symbols, valueOf]

theorem decode_ofNat (n : Nat) : decode (ofNat n) = .ok n := by
  rw [decode_eq_ok_iff, trim_of_isWord (isWord_ofNat n)]
  exact ⟨(isWord_ofNat n).1, valueOf_ofNat n⟩

theorem ofNat_injective : Function.Injective ofNat := by
  intro m n h
  have hm := decode_ofNat m
  rw [h, decode_ofNat n] at hm
  exact (Except.ok.inj hm).symm

theorem encode_eq_ok_iff_of_decode {k : String} {m n : Nat} (h : decode k = .ok m) :
    encode n = .ok (withoutZeros (Text.trim k)) ↔ n = m := by
  rw [encode_natCast, ← ofNat_of_decode h, Except.ok.injEq, ofNat_injective.eq_iff]

/-- Numbers and canonical keys correspond to each other. Every number is read back from its key; a
text is read exactly if it is a word up to white space around it, as the number whose key is this
word without the symbols of zero at its start. -/
theorem codec :
    (∀ n : Nat, ∃ k, encode n = .ok k ∧ decode k = .ok n ∧
      (k.toList.head? = some '0' ↔ n = 0)) ∧
    (∀ k, (∃ n, decode k = .ok n) ↔ IsWord (Text.trim k)) ∧
    (∀ k, ∀ n : Nat, decode k = .ok n ↔
      IsWord (Text.trim k) ∧ encode n = .ok (withoutZeros (Text.trim k))) ∧
    (∀ m n : Nat, encode m = encode n ↔ m = n) ∧
    (∀ k, (∃ n : Nat, encode n = .ok k) ↔ IsCanonical k) := by
  refine ⟨fun n => ⟨_, encode_natCast n, decode_ofNat n, head?_ofNat n⟩,
    exists_decode_eq_ok_iff, fun k n => ?_, fun m n => ?_, fun k => ?_⟩
  · constructor
    · intro h
      exact ⟨(exists_decode_eq_ok_iff k).1 ⟨n, h⟩, (encode_eq_ok_iff_of_decode h).2 rfl⟩
    · rintro ⟨hword, h⟩
      obtain ⟨m, hm⟩ := (exists_decode_eq_ok_iff k).2 hword
      rw [hm, (encode_eq_ok_iff_of_decode hm).1 h]
  · rw [encode_natCast, encode_natCast, Except.ok.injEq, ofNat_injective.eq_iff]
  · constructor
    · rintro ⟨n, hn⟩
      rw [encode_natCast] at hn
      cases hn
      exact isCanonical_ofNat n
    · intro h
      have htrim := trim_of_isWord h.1
      obtain ⟨n, hn⟩ := (exists_decode_eq_ok_iff k).2 (htrim.symm ▸ h.1)
      refine ⟨n, ?_⟩
      rw [encode_natCast, ofNat_of_decode hn, htrim, withoutZeros_of_isCanonical h]

end Inventory.Key
