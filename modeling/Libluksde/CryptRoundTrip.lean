import Libluksde.KeyedContext
import Libluksde.IvDerivation
import Libluksde.Lib.Blocks

/-!
# Decryption inverts encryption

The two dispatch tables of a crypt call agree on the initialization vector, the key and the data,
so that a crypt call is undone by the call in the other direction at the same sector, as far as
the ciphers of the libraries are.  For AES-ECB the loop over the blocks is the map of the block
cipher over them.
-/

namespace Libluksde

open Lib.Bytes Lib.Blocks

variable {L : Libraries}

/-! ## What is relied on of the ciphers -/

/-- The other direction. -/
def CryptMode.opposite : CryptMode → CryptMode
  | .decrypt => .encrypt
  | .encrypt => .decrypt

/-- Data of a positive number of blocks of 16 bytes. -/
def WholeBlocks (data : List UInt8) : Prop := 0 < data.length ∧ 16 ∣ data.length

/-- On whole blocks the one call succeeds, and the other one gives the data back. -/
def Undoes (g f : List UInt8 → Option (List UInt8)) : Prop :=
  ∀ data, WholeBlocks data → ∃ output, f data = some output ∧ g output = some data

/-- The ciphers of the libraries are undone by the call in the other direction, for every key of
a size that is accepted and every initialization vector of the size of the cipher. -/
structure Libraries.RoundTrip (L : Libraries) : Prop where
  aesBlock : ∀ key block m, L.aesKeyBitSize (key.length * 8) = true → block.length = 16 →
    L.aesBlock ⟨m.opposite, key⟩ m.opposite (L.aesBlock ⟨m, key⟩ m block) = block
  aesCbc : ∀ key iv m, L.aesKeyBitSize (key.length * 8) = true → iv.length = 16 →
    Undoes (L.aesCbc.crypt ⟨m.opposite, key⟩ m.opposite iv) (L.aesCbc.crypt ⟨m, key⟩ m iv)
  aesXts : ∀ n key tweakKey iv m, L.aesTweakedKeyBitSize n = true → key.length = n / 8 →
    tweakKey.length = n / 8 → iv.length = 16 →
    Undoes (L.aesXts.crypt ⟨m.opposite, key, tweakKey⟩ m.opposite iv)
      (L.aesXts.crypt ⟨m, key, tweakKey⟩ m iv)
  blowfishCbc : ∀ key iv m, L.blowfishKeyBitSize (key.length * 8) = true → iv.length = 8 →
    Undoes (L.blowfishCbc.crypt key m.opposite iv) (L.blowfishCbc.crypt key m iv)
  blowfishEcb : ∀ key m, L.blowfishKeyBitSize (key.length * 8) = true →
    Undoes (L.blowfishEcb.crypt key m.opposite) (L.blowfishEcb.crypt key m)
  serpentCbc : ∀ key iv m, L.serpentKeyBitSize (key.length * 8) = true → iv.length = 16 →
    Undoes (L.serpentCbc.crypt key m.opposite iv) (L.serpentCbc.crypt key m iv)
  serpentEcb : ∀ key m, L.serpentKeyBitSize (key.length * 8) = true →
    Undoes (L.serpentEcb.crypt key m.opposite) (L.serpentEcb.crypt key m)

/-! ## The AES-ECB loop -/

/-- The map of AES over the first `n` blocks of the data. -/
def aesBlocks (L : Libraries) (k : KeySchedule) (m : CryptMode) (data : List UInt8) (n : ℕ) :
    List UInt8 :=
  concat n fun i => L.aesBlock k m (slice (16 * i) 16 data)

/-- The loop on data of `n` blocks and a rest, from block `i` on: it fails on a rest. -/
theorem aesEcbLoop_eq (k : KeySchedule) (m : CryptMode) {data : List UInt8} {n r : ℕ}
    (hdata : data.length = 16 * n + r) (hr : r < 16) {fuel i : ℕ} (hi : i ≤ n)
    (hfuel : n + 1 ≤ i + fuel) :
    aesEcbLoop L (some k) m data fuel (16 * i) (aesBlocks L k m data i) =
      if r = 0 then some (aesBlocks L k m data n) else none := by
  induction fuel generalizing i with
  | zero => omega
  | succ fuel ih =>
    rw [aesEcbLoop]
    rcases Nat.lt_or_ge i n with hlt | hge
    · -- a whole block is left
      have hblock : libcaesCryptEcb L (some k) m (data.drop (16 * i)) =
          some (L.aesBlock k m (slice (16 * i) 16 data)) := by
        rw [libcaesCryptEcb, List.length_drop]
        exact if_neg (by omega)
      have hnext : aesBlocks L k m data i ++ L.aesBlock k m (slice (16 * i) 16 data) =
          aesBlocks L k m data (i + 1) := (concat_succ i _).symm
      rw [if_pos (by omega), hblock]
      simp only
      rw [hnext, show 16 * i + 16 = 16 * (i + 1) by ring]
      exact ih hlt (by omega)
    · -- only the rest is left
      obtain rfl : i = n := by omega
      by_cases hzero : r = 0
      · rw [if_neg (by omega), if_pos hzero]
      · have hfails : libcaesCryptEcb L (some k) m (data.drop (16 * i)) = none := by
          rw [libcaesCryptEcb, List.length_drop]
          exact if_pos (by omega)
        rw [if_pos (by omega), hfails, if_neg hzero]

/-- The loop on whole blocks. -/
theorem aesEcbLoop_wholeBlocks (k : KeySchedule) (m : CryptMode) {data : List UInt8}
    (hdata : WholeBlocks data) :
    aesEcbLoop L (some k) m data data.length 0 [] =
      some (aesBlocks L k m data (data.length / 16)) := by
  obtain ⟨n, hn⟩ := hdata.2
  have hpos := hdata.1
  have hloop := aesEcbLoop_eq (L := L) k m (r := 0) hn (by norm_num) (Nat.zero_le n)
    (show n + 1 ≤ 0 + data.length by omega)
  rw [if_pos rfl] at hloop
  rw [show data.length / 16 = n by omega]
  exact hloop

/-- Applying AES to the blocks is undone by the other direction. -/
theorem aesBlocks_undoes (hL : L.RoundTrip) {key : List UInt8} (m : CryptMode)
    (hkey : L.aesKeyBitSize (key.length * 8) = true) :
    Undoes (fun data => aesEcbLoop L (some ⟨m.opposite, key⟩) m.opposite data data.length 0 [])
      (fun data => aesEcbLoop L (some ⟨m, key⟩) m data data.length 0 []) := by
  intro data hdata
  obtain ⟨n, hn⟩ := hdata.2
  have hpos := hdata.1
  have hlength : (aesBlocks L ⟨m, key⟩ m data n).length = 16 * n :=
    length_concat fun i _ => L.aesBlock_length _ _ _
  refine ⟨aesBlocks L ⟨m, key⟩ m data n, ?_, ?_⟩
  · simp only
    rw [aesEcbLoop_wholeBlocks _ m hdata, hn, Nat.mul_div_cancel_left _ (by norm_num)]
  · have hwhole : WholeBlocks (aesBlocks L ⟨m, key⟩ m data n) :=
      ⟨by omega, by rw [hlength]; exact Nat.dvd_mul_right 16 n⟩
    simp only
    rw [aesEcbLoop_wholeBlocks _ _ hwhole, hlength, Nat.mul_div_cancel_left _ (by norm_num)]
    congr 1
    rw [← concat_slice hn]
    refine concat_congr fun i hi => ?_
    rw [aesBlocks, slice_concat (fun j _ => L.aesBlock_length _ _ _) hi, concat_slice hn]
    exact hL.aesBlock key _ m hkey (length_slice_of_le (by omega))

/-! ## Crypt calls -/

/-- What the cipher of an encryption mode makes of data. -/
def keyedCipher (L : Libraries) (key : List UInt8) (m : CryptMode) (iv data : List UInt8)
    (mode : EncryptionMode) : Option (List UInt8) :=
  (keyedCall L key m iv data mode).bind fun call => (call.run L).map Prod.fst

/-- The modes of the block ciphers. -/
def EncryptionMode.IsBlockCipher (mode : EncryptionMode) : Prop :=
  mode ≠ .unknown ∧ mode ≠ .rc4Cbc ∧ mode ≠ .rc4Ecb

theorem isBlockCipher_of_select {method : EncryptionMethod} {chainingMode : EncryptionChainingMode}
    (hmethod : method = .aes ∨ method = .blowfish ∨ method = .serpent)
    (hmode : selectEncryptionMode method chainingMode ≠ .unknown) :
    (selectEncryptionMode method chainingMode).IsBlockCipher := by
  refine ⟨hmode, ?_⟩
  obtain rfl | rfl | rfl := hmethod
  all_goals
    cases chainingMode <;> decide

/-- The cipher of an encryption mode is undone by the other direction. -/
theorem keyedCipher_undoes (hL : L.RoundTrip) {key iv : List UInt8} {mode : EncryptionMode}
    (hmode : mode.IsBlockCipher) (hkey : keySizeAccepted L key.length mode = true)
    (hiv : iv.length = 16) (m : CryptMode) :
    Undoes (fun data => keyedCipher L key m.opposite iv data mode)
      (fun data => keyedCipher L key m iv data mode) := by
  have hrun : ∀ f : Option (List UInt8), (f.map fun o => (o, (none : Option Rc4State))).map Prod.fst
      = f := fun f => by cases f <;> rfl
  cases mode with
  | unknown => exact absurd rfl hmode.1
  | rc4Cbc => exact absurd rfl hmode.2.1
  | rc4Ecb => exact absurd rfl hmode.2.2
  | aesCbc =>
    simp only [keyedCipher, keyedCall, CipherCall.run, Option.bind_some, hrun]
    exact hL.aesCbc key iv m hkey hiv
  | aesEcb =>
    simp only [keyedCipher, keyedCall, CipherCall.run, Option.bind_some, hrun]
    exact aesBlocks_undoes hL m hkey
  | aesXts =>
    simp only [keyedCipher, keyedCall, CipherCall.run, Option.bind_some, hrun]
    refine hL.aesXts (key.length * 8 / 2) _ _ iv m hkey ?_ ?_ hiv
    · rw [half_keyBitSize, List.length_take]
      omega
    · rw [half_keyBitSize, length_slice_of_le (by omega)]
  | blowfishCbc =>
    simp only [keyedCipher, keyedCall, CipherCall.run, Option.bind_some, hrun]
    exact hL.blowfishCbc key (iv.take 8) m hkey (by rw [List.length_take, hiv]; rfl)
  | blowfishEcb =>
    simp only [keyedCipher, keyedCall, CipherCall.run, Option.bind_some, hrun]
    exact hL.blowfishEcb key m hkey
  | serpentCbc =>
    simp only [keyedCipher, keyedCall, CipherCall.run, Option.bind_some, hrun]
    exact hL.serpentCbc key iv m hkey hiv
  | serpentEcb =>
    simp only [keyedCipher, keyedCall, CipherCall.run, Option.bind_some, hrun]
    exact hL.serpentEcb key m hkey

/-- A crypt call on a keyed context of a block cipher leaves the context as it is. -/
theorem encryptionContextCrypt_keyedContext {mode : EncryptionMode}
    {ivMode : InitializationVectorMode} {h : HashingMethod} {key data iv : List UInt8} {size : ℕ}
    {sectorNumber : UInt64} (hmode : mode.IsBlockCipher) (hdata : 16 ≤ data.length)
    (hsize : data.length ≤ size ∧ size ≤ ssizeMax)
    (hiv : initializationVector L (keyedContext L mode ivMode h key) sectorNumber = some iv)
    (m : CryptMode) :
    encryptionContextCrypt L (keyedContext L mode ivMode h key) m data size sectorNumber =
      (keyedCipher L key m iv data mode).map fun output =>
        (output, keyedContext L mode ivMode h key) := by
  rw [encryptionContextCrypt_of_iv m hdata hsize hiv, cipherCall_keyedContext, keyedCipher]
  cases hcall : keyedCall L key m iv data mode with
  | none => rfl
  | some call =>
    have hstate : ∀ output state, call.run L = some (output, state) → state = none := by
      intro output state hrun
      refine (CipherCall.run_spec hrun).2 fun hrc4 => ?_
      rw [← cipherCall_keyedContext mode ivMode h] at hcall
      have hcontext := (cipherCall_spec hcall).2 hrc4
      rw [EncryptionContext.IsRc4, keyedContext_encryptionMode] at hcontext
      exact hcontext.elim hmode.2.1 hmode.2.2
    rw [Option.bind_some, Option.bind_some]
    cases hrun : call.run L with
    | none => rfl
    | some r =>
      obtain ⟨output, state⟩ := r
      rw [hstate output state hrun]
      rfl

/-- The cipher of AES-ECB maps AES over the blocks, and fails on a rest. -/
theorem keyedCipher_aesEcb (key iv : List UInt8) (m : CryptMode) {data : List UInt8}
    (hdata : 0 < data.length) :
    keyedCipher L key m iv data .aesEcb =
      if 16 ∣ data.length then some (aesBlocks L ⟨m, key⟩ m data (data.length / 16)) else none := by
  have hsplit := Nat.div_add_mod data.length 16
  have hloop := aesEcbLoop_eq (L := L) ⟨m, key⟩ m hsplit.symm (Nat.mod_lt _ (by norm_num))
    (Nat.zero_le _) (show data.length / 16 + 1 ≤ 0 + data.length by omega)
  have hrest : data.length % 16 = 0 ↔ 16 ∣ data.length := Nat.dvd_iff_mod_eq_zero.symm
  have hempty : aesBlocks L ⟨m, key⟩ m data 0 = [] := rfl
  rw [Nat.mul_zero, hempty] at hloop
  simp only [keyedCipher, keyedCall, CipherCall.run, Option.bind_some, hloop, hrest]
  split <;> rfl

/-- On whole blocks a crypt call is undone by the call in the other direction. -/
theorem keyedContext_roundTrip (hL : L.RoundTrip) {mode : EncryptionMode}
    {ivMode : InitializationVectorMode} {h : HashingMethod} {key data iv : List UInt8}
    {sectorNumber : UInt64} (hmode : mode.IsBlockCipher)
    (hkey : keySizeAccepted L key.length mode = true)
    (hiv : initializationVector L (keyedContext L mode ivMode h key) sectorNumber = some iv)
    (m : CryptMode) (hdata : WholeBlocks data) {size size' : ℕ}
    (hsize : data.length ≤ size ∧ size ≤ ssizeMax)
    (hsize' : data.length ≤ size' ∧ size' ≤ ssizeMax) :
    ∃ output,
      encryptionContextCrypt L (keyedContext L mode ivMode h key) m data size sectorNumber
        = some (output, keyedContext L mode ivMode h key) ∧
      encryptionContextCrypt L (keyedContext L mode ivMode h key) m.opposite output size' sectorNumber
        = some (data, keyedContext L mode ivMode h key) := by
  have hlarge : 16 ≤ data.length := Nat.le_of_dvd hdata.1 hdata.2
  obtain ⟨output, hforth, hback⟩ := keyedCipher_undoes hL hmode hkey (length_initializationVector hiv)
    m data hdata
  simp only at hforth hback
  have hresult : encryptionContextCrypt L (keyedContext L mode ivMode h key) m data size sectorNumber
      = some (output, keyedContext L mode ivMode h key) := by
    rw [encryptionContextCrypt_keyedContext hmode hlarge hsize hiv, hforth, Option.map_some]
  have hlength := (encryptionContextCrypt_spec hresult).1
  refine ⟨output, hresult, ?_⟩
  rw [encryptionContextCrypt_keyedContext hmode (by omega) (by omega) hiv, hback, Option.map_some]

/-- **Decryption inverts encryption.**  For every context of AES, Blowfish or Serpent that was
initialized and keyed, every supported initialization vector mode, every sector number and all
data: on whole blocks a crypt call in either direction succeeds with as many bytes and leaves the
context as it is, and the call in the other direction gives the data back; with AES-ECB the output
is the map of AES over the blocks, and data that is no whole number of blocks is refused. -/
theorem encryptionContextCrypt_roundTrip (hL : L.RoundTrip) {fails : Bool}
    {method : EncryptionMethod} {chainingMode : EncryptionChainingMode}
    {ivMode : InitializationVectorMode} {h : HashingMethod} {created context : EncryptionContext}
    {key : List UInt8} (hmethod : method = .aes ∨ method = .blowfish ∨ method = .serpent)
    (hsupported : ivMode ≠ .unknown ∧ ivMode ≠ .lmk)
    (hcreated : encryptionContextInitialize fails method chainingMode ivMode h = some created)
    (hkeyed : encryptionContextSetKey L created key = some context) (m : CryptMode)
    (sectorNumber : UInt64) {data : List UInt8} (hdata : 16 ≤ data.length) {size size' : ℕ}
    (hsize : data.length ≤ size ∧ size ≤ ssizeMax)
    (hsize' : data.length ≤ size' ∧ size' ≤ ssizeMax) :
    (16 ∣ data.length → ∃ output,
      encryptionContextCrypt L context m data size sectorNumber = some (output, context) ∧
      output.length = data.length ∧
      encryptionContextCrypt L context m.opposite output size' sectorNumber
        = some (data, context) ∧
      (context.encryptionMode = .aesEcb →
        output = aesBlocks L ⟨m, key⟩ m data (data.length / 16))) ∧
    (context.encryptionMode = .aesEcb → ¬ 16 ∣ data.length →
      encryptionContextCrypt L context m data size sectorNumber = none) := by
  obtain ⟨hselect, -, hcreatedMode, -, -, hessiv⟩ := encryptionContextInitialize_spec hcreated
  have hmode := isBlockCipher_of_select hmethod hselect
  rw [encryptionContextSetKey_eq hcreated] at hkeyed
  rw [hcreatedMode] at hessiv
  clear hcreated hcreatedMode hselect
  generalize selectEncryptionMode method chainingMode = mode at hmode hessiv hkeyed
  split_ifs at hkeyed with hkey
  obtain rfl := Option.some.inj hkeyed
  obtain ⟨iv, hiv⟩ := initializationVector_keyedContext (L := L) mode ivMode h key hsupported hessiv
    sectorNumber
  have hcrypt := encryptionContextCrypt_keyedContext hmode hdata hsize hiv m
  have hecb : mode = .aesEcb → encryptionContextCrypt L (keyedContext L mode ivMode h key) m data
      size sectorNumber = (if 16 ∣ data.length then
        some (aesBlocks L ⟨m, key⟩ m data (data.length / 16)) else none).map
          fun output => (output, keyedContext L mode ivMode h key) := by
    rintro rfl
    rw [hcrypt, keyedCipher_aesEcb key iv m (by omega)]
  rw [keyedContext_encryptionMode]
  constructor
  · intro hwhole
    obtain ⟨output, hforth, hback⟩ := keyedContext_roundTrip hL hmode hkey.2 hiv m
      ⟨by omega, hwhole⟩ hsize hsize'
    refine ⟨output, hforth, (encryptionContextCrypt_spec hforth).1, hback, fun haes => ?_⟩
    have hmap := hecb haes
    rw [if_pos hwhole, hforth, Option.map_some, Option.some.injEq, Prod.mk.injEq] at hmap
    exact hmap.1
  · intro haes hrest
    rw [hecb haes, if_neg hrest, Option.map_none]

/-! ## A block and its encryption -/

/-- A block, and what AES makes of it under the key `00 01 02 … 0f`. -/
def aesExample : Buffer 16 × Buffer 16 :=
  (.ofBytes 16 (toBigEndian 16 0x00112233445566778899aabbccddeeff),
    .ofBytes 16 (toBigEndian 16 0x69c4e0d86a7b0430d8cdb78070b4c55a))

/-- A block cipher that exchanges the two blocks and leaves all others. -/
def exchangeBlock (block : List UInt8) : List UInt8 :=
  if block = aesExample.1.bytes then aesExample.2.bytes
  else if block = aesExample.2.bytes then aesExample.1.bytes
  else (Buffer.ofBytes 16 block).bytes

theorem exchangeBlock_exchangeBlock {block : List UInt8} (h : block.length = 16) :
    exchangeBlock (exchangeBlock block) = block := by
  have hne : ¬ aesExample.2.bytes = aesExample.1.bytes := by decide +kernel
  by_cases hfirst : block = aesExample.1.bytes
  · rw [exchangeBlock, exchangeBlock, if_pos hfirst, if_neg hne, if_pos rfl, hfirst]
  · by_cases hsecond : block = aesExample.2.bytes
    · rw [exchangeBlock, exchangeBlock, if_neg hfirst, if_pos hsecond, if_pos rfl, hsecond]
    · rw [exchangeBlock, exchangeBlock, if_neg hfirst, if_neg hsecond, Buffer.bytes_ofBytes h,
        if_neg hfirst, if_neg hsecond, Buffer.bytes_ofBytes h]

/-- Libraries with this block cipher for AES. -/
def exchangeLibraries : Libraries :=
  { Libraries.ofTables [] [] [] with
    aesBlock := fun _ _ block => exchangeBlock block
    aesBlock_length := by
      intro k m block
      unfold exchangeBlock
      split_ifs <;> exact Buffer.length_eq _
    aesCbc := .unused _ }

theorem exchangeLibraries_roundTrip : exchangeLibraries.RoundTrip where
  aesBlock := fun _ _ _ _ hblock => exchangeBlock_exchangeBlock hblock
  aesCbc := fun _ _ _ _ _ data _ => ⟨data, rfl, rfl⟩
  aesXts := fun _ _ _ _ _ _ _ _ _ data _ => ⟨data, rfl, rfl⟩
  blowfishCbc := fun _ _ _ _ _ data _ => ⟨data, rfl, rfl⟩
  blowfishEcb := fun _ _ _ data _ => ⟨data, rfl, rfl⟩
  serpentCbc := fun _ _ _ _ _ data _ => ⟨data, rfl, rfl⟩
  serpentEcb := fun _ _ _ data _ => ⟨data, rfl, rfl⟩

/-- The block in AES-ECB, encrypted and decrypted. -/
theorem encryptionContextCrypt_roundTrip_aes_ecb :
    let L := exchangeLibraries
    let key := toBigEndian 16 0x000102030405060708090a0b0c0d0e0f
    let data := aesExample.1.bytes
    let context := keyedContext L .aesEcb .null .unknown key
    (16 ∣ data.length → ∃ output,
      encryptionContextCrypt L context .encrypt data 16 0 = some (output, context) ∧
      output.length = data.length ∧
      encryptionContextCrypt L context CryptMode.encrypt.opposite output 16 0
        = some (data, context) ∧
      (context.encryptionMode = .aesEcb →
        output = aesBlocks L ⟨.encrypt, key⟩ .encrypt data (data.length / 16))) ∧
    (context.encryptionMode = .aesEcb → ¬ 16 ∣ data.length →
      encryptionContextCrypt L context .encrypt data 16 0 = none) := by
  intro L key data context
  obtain ⟨created, hcreated⟩ : ∃ created,
      encryptionContextInitialize false .aes .ecb .null .unknown = some created := ⟨_, rfl⟩
  have hkeyed : encryptionContextSetKey L created key = some context := by
    rw [encryptionContextSetKey_eq hcreated, if_pos (by decide +kernel)]
    rfl
  exact encryptionContextCrypt_roundTrip exchangeLibraries_roundTrip (Or.inl rfl) (by decide)
    hcreated hkeyed .encrypt 0 (by decide +kernel) (by decide +kernel) (by decide +kernel)

end Libluksde
