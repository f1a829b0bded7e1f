import MaxScaleSystemTest.Lib.CInt
import MaxScaleSystemTest.Sql.InsertText
import Mathlib.Logic.Function.Basic

namespace MaxScaleSystemTest.Sql

open CString CInt

/-!
# The cache of INSERT texts

`allocate_insert_string` keeps each text it has made, in an array of 16 entries.  An entry is
found by `fl` alone, whatever the number of rows, and every `fl` outside the array shares the
last entry.

* `fits_iff` — when the block it reserves holds the text;
* `allocate_insert_string_capacity` — it holds every state of the text of at least one row;
* `runCalls_agrees_iff` — a run of calls, entry by entry;
* `allocate_agrees_iff` — which sequences of calls get the texts of `create_insert_string`.
-/

/-- The array `sql`, `none` for a NULL entry; it is allocated before its first use. -/
abbrev InsertCache := Fin 16 → Option Bytes

/-- The entry of `fl`: the comparison with `sql_size` is one of `size_t`s. -/
def slotOf (fl : Int32) : Fin 16 :=
  if h : (toSize fl).toNat < 16 then ⟨(toSize fl).toNat, h⟩ else 15

/-- The value of `fl` from then on. -/
def slotFl (e : Fin 16) : Int32 := Int32.ofNat e

/-- The size asked of `malloc`: `sizeof(ins1) + N * strlen(tmpstr) + 60`. -/
def reserved (N fl : Int32) : UInt64 :=
  32 + toSize N * UInt64.ofNat (rowText N.toInt fl.toInt).length + 60

/-- Does the block hold the text?  `malloc` refuses a size above `PTRDIFF_MAX`. -/
def Fits (N fl : Int32) : Prop :=
  bytesUsed N fl ≤ (reserved N fl).toNat ∧ (reserved N fl).toNat < 2 ^ 63

instance (N fl : Int32) : Decidable (Fits N fl) := inferInstanceAs (Decidable (_ ∧ _))

/-- `allocate_insert_string`; `none` when it writes outside the block. -/
def allocateInsertString (cache : InsertCache) (fl N : Int32) : Option (Bytes × InsertCache) :=
  let e := slotOf fl
  match cache e with
  | some text => some (text, cache)
  | none =>
    if Fits N (slotFl e) then
      (createInsertString N (slotFl e)).map fun text => (text, Function.update cache e (some text))
    else none

/-- The arguments of a call. -/
structure InsertCall where
  fl : Int32
  N : Int32
  deriving DecidableEq

/-- The texts a sequence of calls gets. -/
def runCalls (cache : InsertCache) : List InsertCall → Option (List Bytes)
  | [] => some []
  | c :: calls => do
    let (text, cache) ← allocateInsertString cache c.fl c.N
    let texts ← runCalls cache calls
    return text :: texts

/-- Every call gets the text `create_insert_string` makes for its own arguments. -/
def Agrees (cache : InsertCache) (calls : List InsertCall) : Prop :=
  ∃ texts, runCalls cache calls = some texts ∧
    texts.map some = calls.map fun c => createInsertString c.N c.fl

/-! ### Numbers and texts -/

/-- The number of rows a call asks for. -/
def InsertCall.count (c : InsertCall) : ℕ := c.N.toInt.toNat

theorem toInt_slotFl : ∀ e : Fin 16, (slotFl e).toInt = (e : ℤ) := by decide

/-- Two texts are the same exactly for the same number of rows and, if there are any, the
    same `fl`. -/
theorem createInsertString_eq_iff (N fl N' fl' : Int32) :
    createInsertString N fl = createInsertString N' fl' ↔
      N.toInt.toNat = N'.toInt.toNat ∧ (N.toInt.toNat = 0 ∨ fl = fl') := by
  refine ⟨fun h => ?_, fun h => ?_⟩
  · -- equal texts read as equal rows
    have hread := parseInsert_createInsertString N fl
    rw [h, parseInsert_createInsertString] at hread
    by_cases hN : N.toInt.toNat = 0
    · rw [if_pos hN] at hread
      by_cases hN' : N'.toInt.toNat = 0
      · exact ⟨hN.trans hN'.symm, .inl hN⟩
      · rw [if_neg hN'] at hread
        cases hread
    · rw [if_neg hN] at hread
      by_cases hN' : N'.toInt.toNat = 0
      · rw [if_pos hN'] at hread
        cases hread
      · rw [if_neg hN', Option.some.injEq] at hread
        have hlen : N'.toInt.toNat = N.toInt.toNat := by
          simpa [firstRows] using congrArg List.length hread
        have hfirst : fl'.toInt = fl.toInt := by
          obtain ⟨n, hn⟩ := Nat.exists_eq_add_one_of_ne_zero hN
          rw [hlen, hn, firstRows, firstRows, List.range_succ_eq_map] at hread
          simpa using (List.cons.inj hread).1
        exact ⟨hlen.symm, .inr (Int32.toInt_inj.mp hfirst.symm)⟩
  · rw [createInsertString_eq, createInsertString_eq, ← h.1]
    rcases h.2 with hzero | rfl
    · rw [hzero]
    · rfl

/-- The string after `n` rounds of the loop. -/
theorem text_foldl_writeRow (fl : Int32) (n : ℕ) :
    ((List.range n).foldl (writeRow fl) ⟨ins1, 0⟩).text
      = ins1 ++ rowsText (firstRows n fl.toInt) := by
  cases n with
  | zero =>
    show ins1 = ins1 ++ []
    rw [List.append_nil]
  | succ n =>
    rw [foldl_writeRow, firstRows_succ, rowsText_append]
    simp [rowsText]

/-- The string when the loop is over, for any number of rows. -/
theorem text_writeRows (N fl : Int32) :
    (writeRows N fl).text = ins1 ++ rowsText (firstRows N.toInt.toNat fl.toInt) :=
  text_foldl_writeRow fl N.toInt.toNat

/-- A row is not longer than a later one. -/
theorem length_rowText_mono {i n : ℕ} (h : i ≤ n) (fl : ℤ) :
    (rowText i fl).length ≤ (rowText n fl).length := by
  have hdigits := Decimal.length_ofNat_mono h
  simp only [rowText, tuple, List.length_append, Decimal.ofInt]
  have hi : ¬ (i : ℤ) < 0 := by omega
  have hn : ¬ (n : ℤ) < 0 := by omega
  rw [if_neg hi, if_neg hn, Int.natAbs_natCast, Int.natAbs_natCast]
  omega

/-- The rows together are not longer than so many of a longer one. -/
theorem length_rowsText_le {k n : ℕ} (h : k ≤ n) (fl : ℤ) :
    (rowsText (firstRows k fl)).length ≤ k * (rowText n fl).length := by
  induction k with
  | zero => exact Nat.zero_le _
  | succ k ih =>
    have hrow : (rowText k fl).length ≤ (rowText n fl).length :=
      length_rowText_mono (Nat.le_of_succ_le h) fl
    have hrest := ih (Nat.le_of_succ_le h)
    rw [firstRows_succ, rowsText_append, List.length_append, Nat.succ_mul]
    have hlast : (rowsText [((k : ℤ), fl)]).length = (rowText k fl).length := by simp [rowsText]
    omega

/-! ### The block that is reserved -/

theorem length_ofInt_le (N : Int32) : (Decimal.ofInt N.toInt).length ≤ 11 := by
  have habs : N.toInt.natAbs ≤ 2 ^ 31 := by
    have hlow := Int32.le_toInt N
    have hhigh := Int32.toInt_lt N
    omega
  have hdigits : (Decimal.ofNat N.toInt.natAbs).length ≤ 10 :=
    (Decimal.length_ofNat_mono habs).trans (by decide +kernel)
  rw [Decimal.ofInt]
  split
  · rw [List.length_cons]
    omega
  · omega

theorem length_rowText_le (N fl : Int32) : (rowText N.toInt fl.toInt).length ≤ 27 := by
  have hN := length_ofInt_le N
  have hfl := length_ofInt_le fl
  have hopen : (ascii "(").length = 1 := rfl
  have hmid : (ascii ", ").length = 2 := rfl
  have hclose : (ascii ")").length = 1 := rfl
  simp only [rowText, tuple, List.length_append, List.length_singleton, hopen, hmid, hclose]
  omega

/-- The block holds the text for every number of rows that is not negative; a negative one
    takes off the 60 bytes in reserve and must leave room for the first part of the text. -/
theorem fits_iff (N fl : Int32) :
    Fits N fl ↔ 0 ≤ N.toInt ∨ N.toInt.natAbs * (rowText N.toInt fl.toInt).length ≤ 60 := by
  have hlow := Int32.le_toInt N
  have hhigh := Int32.toInt_lt N
  have hrow := length_rowText_le N fl
  have hsize := toNat_toSize N
  have hins : ins1.length = 31 := by decide +kernel
  have hused : bytesUsed N fl = 32 + (rowsText (firstRows N.toInt.toNat fl.toInt)).length := by
    rw [bytesUsed, text_writeRows, List.length_append, hins]
    omega
  have hreserved : (reserved N fl).toNat =
      (92 + (toSize N).toNat * (rowText N.toInt fl.toInt).length) % 2 ^ 64 := by
    have hlen : (rowText N.toInt fl.toInt).length % 2 ^ 64 = (rowText N.toInt fl.toInt).length :=
      Nat.mod_eq_of_lt (by omega)
    simp only [reserved, UInt64.toNat_add, UInt64.toNat_mul, UInt64.toNat_ofNat', hlen]
    simp
    omega
  rw [Fits, hused, hreserved]
  generalize hL : (rowText N.toInt fl.toInt).length = L at hrow ⊢
  have hproduct : N.toInt.natAbs * L ≤ 2 ^ 31 * 27 := Nat.mul_le_mul (by omega) hrow
  by_cases hneg : N.toInt < 0
  · -- the product wraps around to `92 - |N| * L`
    have hwrap : (toSize N).toNat * L + N.toInt.natAbs * L = 2 ^ 64 * L := by
      have hsum : (toSize N).toNat + N.toInt.natAbs = 2 ^ 64 := by omega
      rw [← Nat.add_mul, hsum]
    have hnone : rowsText (firstRows N.toInt.toNat fl.toInt) = [] := by
      rw [Int.toNat_of_nonpos (Int.le_of_lt hneg)]
      rfl
    rw [hnone, List.length_nil]
    omega
  · have hcount : (N.toInt.toNat : ℤ) = N.toInt := Int.toNat_of_nonneg (Int.not_lt.mp hneg)
    have hmul : (toSize N).toNat * L = N.toInt.natAbs * L := by
      have hfactor : (toSize N).toNat = N.toInt.natAbs := by omega
      rw [hfactor]
    have hrows := length_rowsText_le (Nat.le_refl N.toInt.toNat) fl.toInt
    rw [hcount, hL, show N.toInt.toNat = N.toInt.natAbs by omega] at hrows
    rw [show N.toInt.toNat = N.toInt.natAbs by omega]
    omega

/-! ### The capacity for a positive number of rows -/

/-- The bytes in use, the NUL with them, when `k` rows have been written. -/
def bytesAfter (fl : Int32) (k : ℕ) : ℕ :=
  ((List.range k).foldl (writeRow fl) ⟨ins1, 0⟩).text.length + 1

/-- Every round uses more bytes. -/
theorem bytesAfter_mono (fl : Int32) {k n : ℕ} (h : k ≤ n) : bytesAfter fl k ≤ bytesAfter fl n := by
  induction n, h using Nat.le_induction with
  | base => exact le_refl _
  | succ n _ ih =>
    refine ih.trans ?_
    unfold bytesAfter
    rw [text_foldl_writeRow, text_foldl_writeRow, firstRows_succ, rowsText_append]
    simp only [List.length_append]
    omega

/-- Overwriting the last comma makes the string no longer. -/
theorem length_createInsertString {N fl : Int32} (hN : 1 ≤ N.toInt) {text : Bytes}
    (h : createInsertString N fl = some text) : text.length + 1 = bytesUsed N fl := by
  obtain ⟨n, hn⟩ : ∃ n, N.toInt.toNat = n + 1 := ⟨N.toInt.toNat - 1, by omega⟩
  rw [createInsertString_eq, hn, Option.some.injEq] at h
  subst h
  rw [bytesUsed, text_writeRows, hn, firstRows_succ, rowsText_append]
  simp [rowsText, rowText]

/-- **Capacity.** For at least one row, no state of the string that `create_insert_string`
    goes through, with its NUL, is longer than the block `allocate_insert_string` reserves. -/
theorem allocate_insert_string_capacity (N fl : Int32) (hN : 1 ≤ N.toInt) :
    (∀ k ≤ N.toInt.toNat, bytesAfter fl k ≤ (reserved N fl).toNat) ∧
      ∀ text, createInsertString N fl = some text → text.length + 1 ≤ (reserved N fl).toNat := by
  have hfits : bytesUsed N fl ≤ (reserved N fl).toNat := ((fits_iff N fl).mpr (.inl (by omega))).1
  refine ⟨fun k hk => ?_, fun text htext => ?_⟩
  · exact (bytesAfter_mono fl hk).trans hfits
  · rw [length_createInsertString hN htext]
    exact hfits

/-- Ten rows for `fl` 15: the block is made from the length of a row with the number 10, which
    is longer than each of the rows 0 to 9. -/
theorem allocate_insert_string_capacity_ten :
    1 ≤ (10 : Int32).toInt ∧
      (∀ k ≤ (10 : Int32).toInt.toNat, bytesAfter 15 k ≤ (reserved 10 15).toNat) ∧
      ∀ text, createInsertString 10 15 = some text → text.length + 1 ≤ (reserved 10 15).toNat :=
  ⟨by decide, allocate_insert_string_capacity 10 15 (by decide)⟩

/-! ### Runs -/

/-- The block of a call's entry holds its text. -/
def InsertCall.fits (c : InsertCall) : Prop :=
  0 ≤ c.N.toInt ∨ c.N.toInt.natAbs * (rowText c.N.toInt (slotOf c.fl)).length ≤ 60

/-- The text made by a call serves another one with the same entry: it asks for as many rows,
    and if these are any, for the `fl` that the entry stands for. -/
def InsertCall.Serves (first own : InsertCall) : Prop :=
  own.count = first.count ∧ (own.count = 0 ∨ own.fl = slotFl (slotOf own.fl))

/-- The first of some calls with the same entry as `c`. -/
def firstUse (calls : List InsertCall) (c : InsertCall) : Option InsertCall :=
  calls.find? fun d => slotOf d.fl = slotOf c.fl

/-- Every entry is made by a call whose text fits, and serves all calls that use it. -/
def CacheServes (calls : List InsertCall) : Prop :=
  ∀ c ∈ calls, ∀ first, firstUse calls c = some first → first.fits ∧ first.Serves c

/-- The cache holds what the first users of its entries have made. -/
def CacheOf (first : Fin 16 → Option InsertCall) (cache : InsertCache) : Prop :=
  ∀ e, cache e = (first e).bind fun c => createInsertString c.N (slotFl e)

/-- The text of a first user is right for a call exactly when it serves it. -/
theorem text_eq_iff (first own : InsertCall) :
    createInsertString first.N (slotFl (slotOf own.fl)) = createInsertString own.N own.fl ↔
      first.Serves own := by
  rw [createInsertString_eq_iff]
  simp only [InsertCall.Serves, InsertCall.count]
  constructor
  · rintro ⟨hcount, hfl⟩
    exact ⟨hcount.symm, hfl.imp (fun hzero => hcount ▸ hzero) Eq.symm⟩
  · rintro ⟨hcount, hfl⟩
    exact ⟨hcount.symm, hfl.imp (fun hzero => hcount ▸ hzero) Eq.symm⟩

/-- A call whose entry is filled gets what is there. -/
theorem allocate_of_filled {cache : InsertCache} {c : InsertCall} {text : Bytes}
    (h : cache (slotOf c.fl) = some text) :
    allocateInsertString cache c.fl c.N = some (text, cache) := by
  simp only [allocateInsertString, h]

/-- A call whose entry is empty makes the text, if it fits. -/
theorem allocate_of_empty {cache : InsertCache} {c : InsertCall}
    (h : cache (slotOf c.fl) = none) :
    allocateInsertString cache c.fl c.N =
      if Fits c.N (slotFl (slotOf c.fl)) then
        (createInsertString c.N (slotFl (slotOf c.fl))).map fun text =>
          (text, Function.update cache (slotOf c.fl) (some text))
      else none := by
  simp only [allocateInsertString, h]

/-- The first call of a run gets its text, and the others go on from the cache it leaves. -/
theorem agrees_cons {cache cache' : InsertCache} {c : InsertCall} {calls : List InsertCall}
    {text : Bytes} (h : allocateInsertString cache c.fl c.N = some (text, cache')) :
    Agrees cache (c :: calls) ↔
      some text = createInsertString c.N c.fl ∧ Agrees cache' calls := by
  have hrun : runCalls cache (c :: calls) = (runCalls cache' calls).map (text :: ·) := by
    rw [runCalls, h]
    show (runCalls cache' calls).bind (fun texts => some (text :: texts)) = _
    cases runCalls cache' calls <;> rfl
  rw [Agrees, Agrees, hrun]
  constructor
  · rintro ⟨texts, hall, htexts⟩
    obtain ⟨rest, hrest, rfl⟩ := Option.map_eq_some_iff.mp hall
    rw [List.map_cons, List.map_cons] at htexts
    obtain ⟨hfirst, hothers⟩ := List.cons.inj htexts
    exact ⟨hfirst, rest, hrest, hothers⟩
  · rintro ⟨hfirst, rest, hrest, hothers⟩
    refine ⟨text :: rest, by rw [hrest, Option.map_some], ?_⟩
    rw [List.map_cons, List.map_cons, hfirst, hothers]

/-- The entry's `fl` printed for a call. -/
theorem fits_slot_iff (c : InsertCall) : Fits c.N (slotFl (slotOf c.fl)) ↔ c.fits := by
  rw [fits_iff, toInt_slotFl, InsertCall.fits]

/-- The call in front is the first to use its entry. -/
theorem firstUse_cons_of_eq {c d : InsertCall} (calls : List InsertCall)
    (h : slotOf d.fl = slotOf c.fl) : firstUse (c :: calls) d = some c := by
  rw [firstUse, List.find?_cons_of_pos (by simpa using h.symm)]

theorem firstUse_cons_of_ne {c d : InsertCall} (calls : List InsertCall)
    (h : slotOf d.fl ≠ slotOf c.fl) : firstUse (c :: calls) d = firstUse calls d := by
  rw [firstUse, List.find?_cons_of_neg (by simpa using h.symm), firstUse]

/-- An entry that is made has a first user from then on. -/
theorem CacheOf.update {first : Fin 16 → Option InsertCall} {cache : InsertCache}
    (h : CacheOf first cache) {c : InsertCall} {e : Fin 16} {text : Bytes}
    (htext : createInsertString c.N (slotFl e) = some text) :
    CacheOf (Function.update first e (some c)) (Function.update cache e (some text)) := by
  intro d
  by_cases hd : d = e
  · subst hd
    simpa using htext.symm
  · simpa [hd] using h d

/-- **Run.** A run from a cache with known first users: each entry that is still empty is made
    by the first call that uses it. -/
theorem runCalls_agrees_iff {first : Fin 16 → Option InsertCall} {cache : InsertCache}
    (h : CacheOf first cache) (calls : List InsertCall) :
    Agrees cache calls ↔
      ∀ c ∈ calls, ∀ f, (first (slotOf c.fl)).or (firstUse calls c) = some f →
        (first (slotOf c.fl) = none → f.fits) ∧ f.Serves c := by
  induction calls generalizing first cache with
  | nil => exact ⟨fun _ => nofun, fun _ => ⟨[], rfl, rfl⟩⟩
  | cons c calls ih =>
    rw [List.forall_mem_cons]
    match hfirst : first (slotOf c.fl) with
    | some f =>
      -- the entry is filled, by `f`
      obtain ⟨text, htext⟩ : ∃ text, createInsertString f.N (slotFl (slotOf c.fl)) = some text :=
        ⟨_, createInsertString_eq _ _⟩
      have hcache : cache (slotOf c.fl) = some text := by
        rw [h, hfirst]
        exact htext
      rw [agrees_cons (allocate_of_filled hcache), ih h, ← htext, text_eq_iff]
      refine and_congr (by simp) (forall₂_congr fun d _ => ?_)
      by_cases hd : slotOf d.fl = slotOf c.fl
      · rw [hd, hfirst, Option.some_or, Option.some_or]
      · rw [firstUse_cons_of_ne calls hd]
    | none =>
      have hcache : cache (slotOf c.fl) = none := by
        rw [h, hfirst]
        rfl
      obtain ⟨text, htext⟩ : ∃ text, createInsertString c.N (slotFl (slotOf c.fl)) = some text :=
        ⟨_, createInsertString_eq _ _⟩
      have halloc := allocate_of_empty hcache
      by_cases hfits : c.fits
      · -- the call makes the entry, and is its first user from now on
        rw [if_pos ((fits_slot_iff c).mpr hfits), htext, Option.map_some] at halloc
        rw [agrees_cons halloc, ih (h.update htext), ← htext, text_eq_iff]
        refine and_congr ?_ (forall₂_congr fun d _ => ?_)
        · simp [firstUse_cons_of_eq calls rfl, hfits]
        · by_cases hd : slotOf d.fl = slotOf c.fl
          · simp [hd, firstUse_cons_of_eq calls hd, hfirst, hfits]
          · simp [hd, firstUse_cons_of_ne calls hd]
      · rw [if_neg (fun hroom => hfits ((fits_slot_iff c).mp hroom))] at halloc
        have hstuck : ¬ Agrees cache (c :: calls) := by
          rintro ⟨texts, hrun, -⟩
          rw [runCalls, halloc] at hrun
          cases hrun
        refine ⟨fun hagrees => absurd hagrees hstuck, fun hall => ?_⟩
        exact absurd ((hall.1 c (firstUse_cons_of_eq calls rfl)).1 rfl) hfits

/-- **The cache.** In a process that starts without texts, all calls get the texts of
    `create_insert_string` exactly when every entry is made by a call that fits and serves
    all its users. -/
theorem allocate_agrees_iff (calls : List InsertCall) :
    Agrees (fun _ => none) calls ↔ CacheServes calls := by
  have hempty : CacheOf (fun _ => none) fun _ => none := fun _ => rfl
  rw [runCalls_agrees_iff hempty]
  simp [CacheServes]

/-- One row for `fl` 0, then two rows for `fl` 0. -/
def twoSizes : List InsertCall := [⟨0, 1⟩, ⟨0, 2⟩]

/-- The second call gets the text with one row. -/
theorem allocate_not_agrees_twoSizes : ¬ Agrees (fun _ => none) twoSizes := by
  intro hagrees
  have hempty : CacheOf (fun _ => none) fun _ => none := fun _ => rfl
  have hall := (runCalls_agrees_iff hempty twoSizes).mp hagrees
  have hserves := (hall ⟨0, 2⟩ (by decide +kernel) ⟨0, 1⟩ (by decide +kernel)).2
  exact absurd hserves.1 (by decide)

end MaxScaleSystemTest.Sql
