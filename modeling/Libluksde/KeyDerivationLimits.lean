import Libluksde.KeyDerivation

/-!
# The key derivation at its limits

The number of blocks is cut to 32 bits without a check.  From `2 ^ 32` blocks on the loop therefore
ends before the output is complete, except where the cut number is `2 ^ 32 - 1`: then the test of
the loop never fails, and the loop ends because a hash size of what is left of the output, or of
nothing, is refused.
-/

namespace Libluksde

open Lib.Bytes Lib.Pbkdf2

/-- The block loop with its rounds, each given by its variables at the beginning. -/
def pbkdf2Trace (L : Libraries) (h : HashingMethod) (password salt : List UInt8)
    (numberOfIterations numberOfBlocks : ℕ) :
    ℕ → Pbkdf2State → List Pbkdf2State × LoopResult (List UInt8)
  | fuel, s =>
    if s.blockIndex ≤ numberOfBlocks then
      match fuel with
      | 0 => ([], .running)
      | fuel + 1 =>
        match pbkdf2Block L h password salt numberOfIterations s.hashSize s.blockIndex with
        | none => ([], .failed)
        | some block =>
          (pbkdf2Trace L h password salt numberOfIterations numberOfBlocks fuel
            (s.store block)).map (s :: ·) id
    else ([], .done s.outputData)

/-- The variables before the first block. -/
def pbkdf2Start (n size : ℕ) : Pbkdf2State := ⟨1, n, 0, size, List.replicate size 0⟩

/-- A round writes the byte of output at a place. -/
def Pbkdf2State.Writes (s : Pbkdf2State) (p : ℕ) : Prop :=
  s.outputDataOffset ≤ p ∧ p < s.outputDataOffset + min s.hashSize s.outputDataSize

/-- The key derivation ends, and where it returns 1, each byte of the output was written in a round
of its own number, of 32 bits, and comes from the block of this number. -/
structure Pbkdf2Sound (L : Libraries) (h : HashingMethod) (n : ℕ) (password salt : List UInt8)
    (iterations size : ℕ) : Prop where
  ends : ∃ fuel, passwordPbkdf2Run L fuel (some password) h salt iterations size ≠ .running
  written : ∀ fuel output,
    passwordPbkdf2Run L fuel (some password) h salt iterations size = .done output →
    ∀ p < size, ∃ s ∈ (pbkdf2Trace L h password salt iterations (pbkdf2NumberOfBlocks size n) fuel
      (pbkdf2Start n size)).1, s.Writes p ∧ s.blockIndex = p / n + 1 ∧ s.blockIndex < 2 ^ 32 ∧
        output[p]? = (block (L.hmac h) password salt iterations s.blockIndex)[p % n]?

variable {L : Libraries} {h : HashingMethod} {n : ℕ} {password salt : List UInt8}
  {iterations size : ℕ}

/-- The loop with its rounds ends as the loop does. -/
theorem pbkdf2Trace_snd (blocks fuel : ℕ) (s : Pbkdf2State) :
    (pbkdf2Trace L h password salt iterations blocks fuel s).2 =
      pbkdf2Loop L h password salt iterations blocks fuel s := by
  induction fuel generalizing s with
  | zero =>
    rw [pbkdf2Trace, pbkdf2Loop]
    split
    · rfl
    · rfl
  | succ fuel ih =>
    rw [pbkdf2Trace, pbkdf2Loop]
    split
    · cases pbkdf2Block L h password salt iterations s.hashSize s.blockIndex with
      | none => rfl
      | some block => exact ih (s.store block)
    · rfl

/-! ## While the block numbers do not wrap around -/

section

variable {blocks : ℕ} {s : Pbkdf2State}

/-- A round of the loop before its last block. -/
theorem Pbkdf2Invariant.trace_succ (hn : Libluksde.hashSize h = some n)
    (hblocks : blocks ≤ numberOfBlocks n size) (hwrap : blocks < 2 ^ 32 - 1)
    (hs : Pbkdf2Invariant L h password salt iterations n size s) (hmore : s.blockIndex ≤ blocks) :
    ∃ next, Pbkdf2Invariant L h password salt iterations n size next ∧
      next.blockIndex = s.blockIndex + 1 ∧ ∀ fuel,
      pbkdf2Trace L h password salt iterations blocks (fuel + 1) s =
        (pbkdf2Trace L h password salt iterations blocks fuel next).map (s :: ·) id := by
  refine ⟨_, hs.store hn (by omega) (by omega), ?_, fun fuel => ?_⟩
  · show (s.blockIndex + 1) % 2 ^ 32 = s.blockIndex + 1
    omega
  · rw [pbkdf2Trace, if_pos hmore, hs.hashSize (by omega),
      pbkdf2Block_eq hn password salt iterations (by omega)]

/-- The loop ends after as many rounds as there are blocks left, and all its rounds are those of
the first blocks. -/
theorem Pbkdf2Invariant.trace (hn : Libluksde.hashSize h = some n)
    (hblocks : blocks ≤ numberOfBlocks n size) (hwrap : blocks < 2 ^ 32 - 1)
    (hs : Pbkdf2Invariant L h password salt iterations n size s)
    (hindex : s.blockIndex ≤ blocks + 1) (fuel : ℕ) :
    (blocks + 1 ≤ s.blockIndex + fuel → ∃ output,
        (pbkdf2Trace L h password salt iterations blocks fuel s).2 = .done output) ∧
      ∀ t ∈ (pbkdf2Trace L h password salt iterations blocks fuel s).1,
        Pbkdf2Invariant L h password salt iterations n size t ∧ t.blockIndex ≤ blocks := by
  induction fuel generalizing s with
  | zero =>
    rw [pbkdf2Trace]
    split
    · exact ⟨fun hfuel => absurd hfuel (by omega), fun t ht => (by cases ht)⟩
    · exact ⟨fun _ => ⟨_, rfl⟩, fun t ht => (by cases ht)⟩
  | succ fuel ih =>
    by_cases hmore : s.blockIndex ≤ blocks
    · obtain ⟨next, hnext, hsucc, htrace⟩ := hs.trace_succ hn hblocks hwrap hmore
      obtain ⟨hends, hrounds⟩ := ih hnext (by omega)
      rw [htrace]
      refine ⟨fun hfuel => hends (by omega), fun t ht => ?_⟩
      rcases List.mem_cons.1 ht with rfl | ht
      · exact ⟨hs, hmore⟩
      · exact hrounds t ht
    · rw [pbkdf2Trace, if_neg hmore]
      exact ⟨fun _ => ⟨_, rfl⟩, fun t ht => (by cases ht)⟩

/-- A loop that ends well has had the round of every block. -/
theorem Pbkdf2Invariant.trace_mem (hn : Libluksde.hashSize h = some n) {fuel : ℕ}
    (hblocks : blocks ≤ numberOfBlocks n size) (hwrap : blocks < 2 ^ 32 - 1)
    (hs : Pbkdf2Invariant L h password salt iterations n size s) {output : List UInt8}
    (hdone : (pbkdf2Trace L h password salt iterations blocks fuel s).2 = .done output) {i : ℕ}
    (hi : s.blockIndex ≤ i ∧ i ≤ blocks) :
    ∃ t ∈ (pbkdf2Trace L h password salt iterations blocks fuel s).1,
      Pbkdf2Invariant L h password salt iterations n size t ∧ t.blockIndex = i := by
  have hmore : s.blockIndex ≤ blocks := hi.1.trans hi.2
  induction fuel generalizing s with
  | zero =>
    rw [pbkdf2Trace, if_pos hmore] at hdone
    cases hdone
  | succ fuel ih =>
    obtain ⟨next, hnext, hsucc, htrace⟩ := hs.trace_succ hn hblocks hwrap hmore
    rw [htrace] at hdone ⊢
    rcases Nat.eq_or_lt_of_le hi.1 with rfl | hlt
    · exact ⟨s, List.mem_cons_self, hs, rfl⟩
    · obtain ⟨t, ht, hinvariant⟩ := ih hnext hdone ⟨by omega, hi.2⟩ (by omega)
      exact ⟨t, List.mem_cons_of_mem s ht, hinvariant⟩

/-- A loop that ends well leaves the output behind the last block. -/
theorem Pbkdf2Invariant.trace_done (hn : Libluksde.hashSize h = some n) {fuel : ℕ}
    (hblocks : blocks ≤ numberOfBlocks n size) (hwrap : blocks < 2 ^ 32 - 1)
    (hs : Pbkdf2Invariant L h password salt iterations n size s)
    (hindex : s.blockIndex ≤ blocks + 1) {output : List UInt8}
    (hdone : (pbkdf2Trace L h password salt iterations blocks fuel s).2 = .done output) :
    ∃ t, Pbkdf2Invariant L h password salt iterations n size t ∧ t.blockIndex = blocks + 1 ∧
      output = t.outputData := by
  induction fuel generalizing s with
  | zero =>
    rw [pbkdf2Trace] at hdone
    split at hdone
    · cases hdone
    · rename_i hno
      cases hdone
      exact ⟨s, hs, by omega, rfl⟩
  | succ fuel ih =>
    by_cases hmore : s.blockIndex ≤ blocks
    · obtain ⟨next, hnext, hsucc, htrace⟩ := hs.trace_succ hn hblocks hwrap hmore
      rw [htrace] at hdone
      exact ih hnext (by omega) hdone
    · rw [pbkdf2Trace, if_neg hmore] at hdone
      cases hdone
      exact ⟨s, hs, by omega, rfl⟩

end

/-! ## Where the test of the loop never fails -/

section

variable (hreject : ∀ key message m, m < n → L.hmacOtherSize h key message m = none)

include hreject

/-- A hash size below that of the digest is refused. -/
theorem pbkdf2Block_small (hn : hashSize h = some n) {m : ℕ} (hm : m < n) (i : ℕ) :
    pbkdf2Block L h password salt iterations m i = none := by
  have hne : ¬ hashSize h = some m := by
    rw [hn, Option.some.injEq]
    omega
  rw [pbkdf2Block, libhmacCalculateHmac, if_neg hne, hreject _ _ m hm]
  rfl

/-- With the largest number of blocks the loop ends with an error: it goes on until nothing is left
of the output, and the hash size that is left then is refused. -/
theorem pbkdf2Loop_largest (hn : hashSize h = some n) {fuel : ℕ} {s : Pbkdf2State}
    (hindex : s.blockIndex < 2 ^ 32) (hsize : s.hashSize ≤ n)
    (hfuel : s.outputDataSize + 2 ≤ fuel ∨ s.hashSize < n ∧ 1 ≤ fuel) :
    pbkdf2Loop L h password salt iterations (2 ^ 32 - 1) fuel s = .failed := by
  have hpos := hashSize_pos hn
  induction fuel generalizing s with
  | zero => omega
  | succ fuel ih =>
    rw [pbkdf2Loop, if_pos (by omega)]
    by_cases hsmall : s.hashSize < n
    · rw [pbkdf2Block_small hreject hn hsmall]
    · obtain hwhole : s.hashSize = n := by omega
      cases pbkdf2Block L h password salt iterations s.hashSize s.blockIndex with
      | none => rfl
      | some block =>
        refine ih ?_ ?_ ?_
        · exact Nat.mod_lt _ (by norm_num)
        · simp only [Pbkdf2State.store]
          split <;> omega
        · simp only [Pbkdf2State.store]
          split <;> omega

end

/-- With the largest number of blocks the loop never ends well. -/
theorem pbkdf2Loop_largest_ne_done {fuel : ℕ} {s : Pbkdf2State} (hindex : s.blockIndex < 2 ^ 32)
    (output : List UInt8) :
    pbkdf2Loop L h password salt iterations (2 ^ 32 - 1) fuel s ≠ .done output := by
  induction fuel generalizing s with
  | zero =>
    rw [pbkdf2Loop, if_pos (by omega)]
    intro hdone
    cases hdone
  | succ fuel ih =>
    rw [pbkdf2Loop, if_pos (by omega)]
    cases pbkdf2Block L h password salt iterations s.hashSize s.blockIndex with
    | none =>
      intro hdone
      cases hdone
    | some block => exact ih (Nat.mod_lt _ (by norm_num))

/-! ## When the output is complete -/

section

variable (hn : hashSize h = some n) (hpassword : password.length ≤ ssizeMax - 1)
  (hsalt : salt.length ≤ ssizeMax) (hiterations : 1 ≤ iterations) (hsize : size ≤ ssizeMax)

include hn hpassword hsalt hiterations hsize

/-- Behind the checks of the arguments, the size of the data buffer is checked, and the loop is
run. -/
theorem passwordPbkdf2Run_eq (fuel : ℕ) :
    passwordPbkdf2Run L fuel (some password) h salt iterations size =
      if salt.length + 4 > memoryMaximumAllocationSize then .failed
      else pbkdf2Loop L h password salt iterations (numberOfBlocks n size % 2 ^ 32) fuel
        (pbkdf2Start n size) := by
  simp only [passwordPbkdf2Run, hn]
  rw [if_neg (by omega), if_neg (by omega), if_neg (by omega), if_neg (by omega),
    pbkdf2NumberOfBlocks_mod (hashSize_pos hn)]
  rfl

/-- Below the largest number of blocks the output is complete. -/
theorem pbkdf2Sound_of_small (hsmall : numberOfBlocks n size < 2 ^ 32 - 1) :
    Pbkdf2Sound L h n password salt iterations size := by
  have hpos := hashSize_pos hn
  have hmod : numberOfBlocks n size % 2 ^ 32 = numberOfBlocks n size :=
    Nat.mod_eq_of_lt (by omega)
  have hrun := passwordPbkdf2Run_eq (L := L) hn hpassword hsalt hiterations hsize
  have hstart : Pbkdf2Invariant L h password salt iterations n size (pbkdf2Start n size) := .start
  rw [hmod] at hrun
  constructor
  · refine ⟨numberOfBlocks n size, ?_⟩
    rw [hrun]
    split
    · exact fun hrunning => (by cases hrunning)
    · obtain ⟨output, hdone⟩ := (hstart.trace hn le_rfl hsmall (Nat.le_add_left 1 _)
        (numberOfBlocks n size)).1 (Nat.le_of_eq (Nat.add_comm _ _))
      rw [← pbkdf2Trace_snd, hdone]
      exact fun hrunning => (by cases hrunning)
  · intro fuel output hdone p hp
    rw [hrun] at hdone
    split at hdone
    · cases hdone
    rw [← pbkdf2Trace_snd] at hdone
    have hplace : p / n < numberOfBlocks n size := by
      rw [lt_numberOfBlocks_iff hpos]
      exact (Nat.div_mul_le_self p n).trans_lt hp
    obtain ⟨t, ht, hinvariant, hindex⟩ := hstart.trace_mem hn le_rfl hsmall hdone
      ⟨Nat.le_add_left 1 _, hplace⟩
    obtain ⟨last, hlast, hend, rfl⟩ := hstart.trace_done hn le_rfl hsmall (Nat.le_add_left 1 _) hdone
    rw [pbkdf2NumberOfBlocks_mod hpos, hmod]
    refine ⟨t, ht, ?_, hindex, by omega, ?_⟩
    · have hdiv := Nat.div_add_mod p n
      have hrest := Nat.mod_lt p hpos
      rw [Nat.mul_comm] at hdiv
      rw [Pbkdf2State.Writes, hinvariant.outputDataOffset, hinvariant.outputDataSize,
        hinvariant.hashSize (by omega), hindex, Nat.add_sub_cancel]
      omega
    · have hcount : size ≤ numberOfBlocks n size * n := by
        by_contra hlt
        exact absurd ((lt_numberOfBlocks_iff hpos).2 (Nat.not_le.1 hlt)) (lt_irrefl _)
      rw [hlast.outputData_eq hn (by omega), derivedKey, List.getElem?_take, if_pos hp, hindex,
        getElem?_firstBlocks (L.hmac_length hn) iterations (hp.trans_le hcount)]

/-- Where the number of blocks is cut, the end of the output is not written. -/
theorem not_pbkdf2Sound_of_cut (hbuffer : salt.length + 4 ≤ memoryMaximumAllocationSize)
    (hlarge : 2 ^ 32 ≤ numberOfBlocks n size)
    (hcut : numberOfBlocks n size % 2 ^ 32 ≠ 2 ^ 32 - 1) :
    ¬ Pbkdf2Sound L h n password salt iterations size := by
  have hpos := hashSize_pos hn
  have hmod := Nat.mod_lt (numberOfBlocks n size) (show 0 < 2 ^ 32 by norm_num)
  have hwrap : numberOfBlocks n size % 2 ^ 32 < 2 ^ 32 - 1 := by omega
  have hless : numberOfBlocks n size % 2 ^ 32 < numberOfBlocks n size := by omega
  have hstart : Pbkdf2Invariant L h password salt iterations n size (pbkdf2Start n size) := .start
  obtain ⟨hends, hrounds⟩ := hstart.trace hn hless.le hwrap (Nat.le_add_left 1 _)
    (numberOfBlocks n size)
  obtain ⟨output, hdone⟩ := hends (by show _ ≤ 1 + numberOfBlocks n size; omega)
  have hcovered := (lt_numberOfBlocks_iff hpos).1 hless
  intro hsound
  have hrun := passwordPbkdf2Run_eq (L := L) hn hpassword hsalt hiterations hsize
    (numberOfBlocks n size)
  rw [if_neg (by omega), ← pbkdf2Trace_snd, hdone] at hrun
  -- the last byte lies behind the rounds
  obtain ⟨t, ht, hwrites, -⟩ := hsound.written _ output hrun (size - 1) (by omega)
  rw [pbkdf2NumberOfBlocks_mod hpos] at ht
  obtain ⟨hinvariant, hindex⟩ := hrounds t ht
  have hlast : t.blockIndex * n ≤ numberOfBlocks n size % 2 ^ 32 * n := Nat.mul_le_mul_right n hindex
  have hpos := hinvariant.blockIndex
  obtain ⟨i, hi⟩ : ∃ i, t.blockIndex = i + 1 := ⟨t.blockIndex - 1, by omega⟩
  rw [hi, Nat.succ_mul] at hlast
  rw [Pbkdf2State.Writes, hinvariant.outputDataOffset, hinvariant.hashSize (by omega), hi,
    Nat.add_sub_cancel] at hwrites
  omega

/-- For arguments that pass the checks, the key derivation ends, and returns 1 only with a complete
output, exactly when the data buffer is refused, the output takes less than `2 ^ 32` blocks, or the
cut number of blocks is the largest one. -/
theorem pbkdf2Sound_iff
    (hreject : ∀ key message m, m < n → L.hmacOtherSize h key message m = none) :
    Pbkdf2Sound L h n password salt iterations size ↔
      memoryMaximumAllocationSize < salt.length + 4 ∨ numberOfBlocks n size < 2 ^ 32 ∨
        numberOfBlocks n size % 2 ^ 32 = 2 ^ 32 - 1 := by
  have hrun := passwordPbkdf2Run_eq (L := L) hn hpassword hsalt hiterations hsize
  constructor
  · intro hsound
    by_contra hno
    rw [not_or, not_or] at hno
    exact not_pbkdf2Sound_of_cut hn hpassword hsalt hiterations hsize (by omega) (by omega) hno.2.2
      hsound
  · intro hcases
    by_cases hbuffer : salt.length + 4 > memoryMaximumAllocationSize
    · simp only [if_pos hbuffer] at hrun
      constructor
      · exact ⟨0, by rw [hrun]; exact fun hrunning => (by cases hrunning)⟩
      · intro fuel output hdone
        rw [hrun] at hdone
        cases hdone
    · by_cases hsmall : numberOfBlocks n size < 2 ^ 32 - 1
      · exact pbkdf2Sound_of_small hn hpassword hsalt hiterations hsize hsmall
      · have hlargest : numberOfBlocks n size % 2 ^ 32 = 2 ^ 32 - 1 := by
          rcases hcases with hbig | hless | hmod
          · exact absurd hbig hbuffer
          · rw [Nat.mod_eq_of_lt hless]
            omega
          · exact hmod
        have hfirst : (pbkdf2Start n size).blockIndex < 2 ^ 32 := by
          show 1 < 2 ^ 32
          norm_num
        simp only [if_neg hbuffer, hlargest] at hrun
        constructor
        · refine ⟨size + 2, ?_⟩
          have hfailed : pbkdf2Loop L h password salt iterations (2 ^ 32 - 1) (size + 2)
              (pbkdf2Start n size) = .failed :=
            pbkdf2Loop_largest hreject hn hfirst le_rfl (Or.inl le_rfl)
          rw [hrun]
          exact fun hrunning => (by cases hfailed.symm.trans hrunning)
        · intro fuel output hdone
          rw [hrun] at hdone
          exact absurd hdone (pbkdf2Loop_largest_ne_done hfirst output)

end

/-- The output of 30 bytes is complete. -/
theorem pbkdf2Sound_thirty : Pbkdf2Sound thirtyLibraries .sha1 20 [1] [2] 3 30 :=
  (pbkdf2Sound_iff rfl (by decide) (by decide) (by decide) (by decide) fun _ _ _ _ => rfl).2
    (Or.inr (Or.inl (by decide)))

/-- Where the output takes `2 ^ 32` blocks of SHA-1, the loop has no round at all, and zero bytes
are returned. -/
theorem pbkdf2_cutToZero :
    let L := Libraries.ofTables [] [] []
    ¬ Pbkdf2Sound L .sha1 20 [1] [2] 3 (2 ^ 32 * 20) ∧
      passwordPbkdf2Run L 0 (some [1]) .sha1 [2] 3 (2 ^ 32 * 20) =
        .done (List.replicate (2 ^ 32 * 20) 0) := by
  intro L
  have hcut : numberOfBlocks 20 (2 ^ 32 * 20) % 2 ^ 32 = 0 := by norm_num [numberOfBlocks]
  have hbuffer : [(2 : UInt8)].length + 4 ≤ memoryMaximumAllocationSize := by decide
  constructor
  · refine not_pbkdf2Sound_of_cut rfl (by decide) (by decide) (by decide) (by decide) hbuffer ?_ ?_
    · norm_num [numberOfBlocks]
    · rw [hcut]
      norm_num
  · have hrun : passwordPbkdf2Run L 0 (some [1]) .sha1 [2] 3 (2 ^ 32 * 20) = _ :=
      passwordPbkdf2Run_eq rfl (by decide) (by decide) (by decide) (by decide) 0
    rw [hrun, hcut, if_neg (Nat.not_lt.2 hbuffer), pbkdf2Loop, if_neg (by decide)]
    rfl

end Libluksde
