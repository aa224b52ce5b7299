import Libluksde.DocumentedNames
import Libluksde.KeyDerivation
import Libluksde.ReadComplete

/-!
# Volumes with unsupported names

A header whose names are not documented ones should never give data.  Names of encryption and
hashing methods and chaining modes that are not supported are stopped at the creation of the
encryption context or at the validation of the master key.  Behind a supported chaining mode
nothing is stopped: an initialization vector mode that is not recognized leaves the mode `none`,
and the sectors are decrypted with zero bytes as initialization vector.
-/

namespace Libluksde

open Lib.Bytes Lib.Stream Lib.Machine

variable {L : Libraries}

/-! ## Statement -/

/-- No read of an open volume whose header has these names returns data, after any session. -/
def NeverReads (L : Libraries) (encryptionMethod encryptionMode hashingMethod : Buffer 32) : Prop :=
  ∀ (session : List Operation) (file : FileIoHandle),
    (volumeAfter L session).fileIoHandle = some file →
    HasNames file encryptionMethod encryptionMode hashingMethod →
    ∀ operation, (step L operation (volumeAfter L session)).2.data = []

/-- The names of the encryption methods that are implemented. -/
def implementedMethods : List (List Char) :=
  [['a', 'e', 's'], ['a', 'r', 'c', '4'], ['b', 'l', 'o', 'w', 'f', 'i', 's', 'h'],
    ['s', 'e', 'r', 'p', 'e', 'n', 't']]

/-- The names of the hashing methods that are implemented. -/
def implementedHashes : List (List Char) :=
  [['s', 'h', 'a', '1'], ['s', 'h', 'a', '2', '2', '4'], ['s', 'h', 'a', '2', '5', '6'],
    ['s', 'h', 'a', '5', '1', '2']]

/-- The names pass all checks although they are not documented: the methods and the chaining mode
are implemented, and what is behind the chaining mode is not a documented initialization vector
mode. -/
structure PassesUnchecked (encryptionMethod encryptionMode hashingMethod : Buffer 32) : Prop where
  method : ∃ cs ∈ implementedMethods, nameOf encryptionMethod.bytes = ascii cs
  hash : ∃ cs ∈ implementedHashes, nameOf hashingMethod.bytes = ascii cs
  chaining : ascii ['c', 'b', 'c', '-'] <+: nameOf encryptionMode.bytes ∨
    nameOf encryptionMethod.bytes = ascii ['a', 'e', 's'] ∧
      ascii ['x', 't', 's', '-'] <+: nameOf encryptionMode.bytes
  vector : ¬ DocumentedVectorMode ((nameOf encryptionMode.bytes).drop 4)

/-! ## What is stopped -/

/-- Without an encryption context nothing is read. -/
theorem Readable.reads_nothing {v : Volume} {file : FileIoHandle} (h : Readable L v file)
    (hnone : v.encryptionContext = none) (env : ReadEnvironment) (size : ℕ) :
    (internalVolumeReadBufferFromFileIoHandle L env v (some file) size).2.data = [] := by
  have houtcome := (h.read env size).1
  generalize internalVolumeReadBufferFromFileIoHandle L env v (some file) size = r at houtcome
  obtain ⟨v', result⟩ := r
  cases houtcome with
  | failed => rfl
  | read _ _ _ hdata =>
    rename_i data
    by_contra hne
    have hstateless : Stateless v.encryptionContext := fun c hc => by
      rw [hnone] at hc
      cases hc
    have hsome := (hdata hstateless).isSome (List.length_pos_iff.2 hne)
    simp only [ReadPlace.stream, readStream, Volume.readPlace, hnone, plainSector,
      Option.bind_none, blocks] at hsome
    split at hsome
    · cases hsome
    · cases hsome

theorem Wellformed.step_reads_nothing {v : Volume} (hv : Wellformed L v)
    (hnone : v.encryptionContext = none) (operation : Operation) :
    (step L operation v).2.data = [] := by
  cases operation with
  | readBuffer env size =>
    simp only [step, volumeReadBuffer]
    split
    · rfl
    · rename_i file hfile
      exact (hv.readable hfile).reads_nothing hnone env size
  | readBufferAtOffset env size offset =>
    simp only [step, volumeReadBufferAtOffset]
    split
    · rfl
    · rename_i file hfile
      obtain heq | ⟨-, o, hl, hu, heq⟩ := internalVolumeSeekOffset_cases v seekSet offset.2
      · rw [heq]
        rfl
      · rw [heq]
        have hnot : ¬ o = -1 := by omega
        simp only [if_neg hnot]
        have hmoved : Wellformed L { v with currentOffset := o } := hv.of_offset rfl ⟨hl, hu⟩
        exact (hmoved.readable hfile).reads_nothing hnone env size
  | _ => rfl

/-- A recognized method that the choice of the encryption mode or the key derivation knows. -/
theorem implementedMethod_of_select {name : List UInt8} {chainingMode : EncryptionChainingMode}
    (h : selectEncryptionMode ((named methodNames name).getD .unknown) chainingMode ≠ .unknown) :
    (∃ cs ∈ implementedMethods, name = ascii cs) ∧
      (chainingMode = .xts → name = ascii ['a', 'e', 's']) := by
  cases hnamed : named methodNames name with
  | none =>
    rw [hnamed] at h
    exact absurd rfl h
  | some method =>
    rw [hnamed, Option.getD_some] at h
    obtain ⟨cs, hmem, rfl⟩ := named_some hnamed
    have hall : ∀ p ∈ methodNames, ∀ c ∈ [EncryptionChainingMode.unknown, .cbc, .ecb, .xts],
        selectEncryptionMode p.2 c ≠ .unknown →
          p.1 ∈ implementedMethods ∧ (c = .xts → p.1 = ['a', 'e', 's']) := by
      decide
    obtain ⟨himplemented, hxts⟩ := hall _ hmem chainingMode (by cases chainingMode <;> simp) h
    exact ⟨⟨cs, himplemented, rfl⟩, fun hc => congrArg ascii (hxts hc)⟩

theorem implementedHash_of_hashSize {name : List UInt8}
    (h : hashSize ((named hashNames name).getD .unknown) ≠ none) :
    ∃ cs ∈ implementedHashes, name = ascii cs := by
  cases hnamed : named hashNames name with
  | none =>
    rw [hnamed] at h
    exact absurd rfl h
  | some method =>
    rw [hnamed, Option.getD_some] at h
    obtain ⟨cs, hmem, rfl⟩ := named_some hnamed
    have hall : ∀ p ∈ hashNames, hashSize p.2 ≠ none → p.1 ∈ implementedHashes := by decide
    exact ⟨cs, hall _ hmem h, rfl⟩

/-- Names that are implemented are documented, or they pass the checks unchecked. -/
theorem passesUnchecked_of_implemented {encryptionMethod encryptionMode hashingMethod : Buffer 32}
    (hdocumented : ¬ Documented encryptionMethod encryptionMode hashingMethod)
    (hmode : selectEncryptionMode
      ((named methodNames (nameOf encryptionMethod.bytes)).getD .unknown)
      ((parsedChainingMode encryptionMode.bytes).getD .unknown) ≠ .unknown)
    (hhash : hashSize ((named hashNames (nameOf hashingMethod.bytes)).getD .unknown) ≠ none) :
    PassesUnchecked encryptionMethod encryptionMode hashingMethod := by
  obtain ⟨⟨cs, hcs, hname⟩, hxts⟩ := implementedMethod_of_select hmode
  obtain ⟨hs, hhs, hhashName⟩ := implementedHash_of_hashSize hhash
  have hundocumented : ¬ DocumentedMode (nameOf encryptionMode.bytes) := fun hdoc =>
    hdocumented ⟨⟨cs, (by decide : ∀ cs ∈ implementedMethods, cs ∈ documentedMethods) cs hcs,
      hname⟩, hdoc, ⟨hs, (by decide : ∀ hs ∈ implementedHashes, hs ∈ documentedHashes) hs hhs,
      hhashName⟩⟩
  have hchaining : ascii ['c', 'b', 'c', '-'] <+: nameOf encryptionMode.bytes ∨
      nameOf encryptionMethod.bytes = ascii ['a', 'e', 's'] ∧
        ascii ['x', 't', 's', '-'] <+: nameOf encryptionMode.bytes := by
    rw [parsedChainingMode_undocumented hundocumented] at hmode hxts
    split_ifs at hmode hxts with hcbc hbegins
    · exact Or.inl hcbc
    · exact Or.inr ⟨hxts rfl, hbegins⟩
    · exfalso
      revert hmode
      cases (named methodNames (nameOf encryptionMethod.bytes)).getD .unknown <;> decide
  refine ⟨⟨cs, hcs, hname⟩, ⟨hs, hhs, hhashName⟩, hchaining, fun hvector => hundocumented ?_⟩
  obtain hcbc | ⟨-, hbegins⟩ := hchaining
  · exact ⟨['c', 'b', 'c'], by decide, Or.inr ⟨hcbc, hvector⟩⟩
  · exact ⟨['x', 't', 's'], by decide, Or.inr ⟨hbegins, hvector⟩⟩

/-- Names that are not documented and do not pass the checks give no data. -/
theorem neverReads_of_checked {encryptionMethod encryptionMode hashingMethod : Buffer 32}
    (hdocumented : ¬ Documented encryptionMethod encryptionMode hashingMethod)
    (hchecked : ¬ PassesUnchecked encryptionMethod encryptionMode hashingMethod) :
    NeverReads L encryptionMethod encryptionMode hashingMethod := by
  intro session file hopen hnames operation
  have hv := volumeAfter_wellformed (L := L) session
  refine hv.step_reads_nothing ?_ operation
  by_contra hne
  obtain ⟨context, hcontext⟩ := Option.ne_none_iff_exists'.1 hne
  obtain ⟨env, header₀, header, hheader, hs, hsome⟩ := (hv.opened file hopen).header
  obtain ⟨hmode, hhash⟩ :=
    (volumeAfter_contextsOfHeader session header context hsome hcontext).supported
  obtain ⟨hmethodName, hmodeName, hhashName⟩ := hheader.names hnames
  have hmethod : header.encryptionMethod = header₀.encryptionMethod := by rw [hs]
  have hchaining : header.encryptionChainingMode = header₀.encryptionChainingMode := by rw [hs]
  have hhashing : header.hashingMethod = header₀.hashingMethod := by rw [hs]
  rw [hmethod, hchaining, hmethodName, hmodeName] at hmode
  rw [hhashing, hhashName] at hhash
  exact hchecked (passesUnchecked_of_implemented hdocumented hmode hhash)

/-! ## What is not stopped -/

/-- What is relied on of the libraries to build a volume: keys of 32 bytes are accepted, and some
text is a volume identifier. -/
structure Libraries.AcceptsKeys (L : Libraries) : Prop where
  identifier : ∃ (text : Buffer 40) (identifier : Buffer 16),
    L.identifierFromUtf8String text.bytes = some identifier
  keySize : L.aesKeyBitSize 256 = true ∧ L.blowfishKeyBitSize 256 = true ∧
    L.rc4KeyBitSize 256 = true ∧ L.serpentKeyBitSize 256 = true
  tweakedKeySize : L.aesTweakedKeyBitSize 128 = true

/-- A key that was set and holds unlocks a volume that knows its header. -/
theorem internalVolumeUnlock_setKey {v : Volume} {header : VolumeHeader}
    {context : EncryptionContext} (hbytes : v.ioHandle.bytesPerSector = 512)
    (hheader : v.volumeHeader = some header) (hset : v.volumeMasterKeyIsSet = true)
    (hnone : v.encryptionContext = none)
    (hvalid : masterKeyIsValid L false header (v.masterKey.bytes.take v.masterKeySize) = some true)
    (hcreated : createContext L false false header (v.masterKey.bytes.take v.masterKeySize)
      = some context) (file : Option FileIoHandle) :
    internalVolumeUnlock L {} v file =
      ({ v with
          volumeMasterKeyIsSet := true
          encryptionContext := some context
          isLocked := false }, 1) := by
  have hpreset : presetKeyIsValid L {} v header = some true := by
    rw [presetKeyIsValid, if_pos hset, hvalid]
  have hopened : internalVolumeOpenReadKeys L {} v file =
      ({ v with volumeMasterKeyIsSet := true, encryptionContext := some context }, 1) := by
    rw [internalVolumeOpenReadKeys_eq _ _ (by omega) hheader, hpreset]
    simp only [readKeysFromSlots, Bool.true_eq_false, false_and, if_false, createVolumeContext]
    rw [if_pos ⟨trivial, hnone⟩]
    simp only [hcreated]
  rw [internalVolumeUnlock, hopened]
  rfl

/-- A name that begins with a chaining mode and a separator has a vector mode behind it. -/
theorem PassesUnchecked.undocumented {encryptionMethod encryptionMode hashingMethod : Buffer 32}
    (h : PassesUnchecked encryptionMethod encryptionMode hashingMethod) :
    ¬ DocumentedMode (nameOf encryptionMode.bytes) := by
  rintro ⟨cs, hcs, hname | ⟨-, hvector⟩⟩
  · have hshort : ∀ cs ∈ documentedChainingModes, ¬ ascii ['c', 'b', 'c', '-'] <+: ascii cs ∧
        ¬ ascii ['x', 't', 's', '-'] <+: ascii cs := by decide
    have hchaining := h.chaining
    rw [hname] at hchaining
    obtain hcbc | ⟨-, hxts⟩ := hchaining
    · exact (hshort cs hcs).1 hcbc
    · exact (hshort cs hcs).2 hxts
  · exact h.vector hvector

/-- Names that pass unchecked have a chaining mode, and no initialization vector mode. -/
theorem PassesUnchecked.parsed {encryptionMethod encryptionMode hashingMethod : Buffer 32}
    (h : PassesUnchecked encryptionMethod encryptionMode hashingMethod) (header : VolumeHeader) :
    ∃ chainingMode,
      volumeParseEncryptionMode header encryptionMode.bytes =
        { header with
          encryptionChainingMode := chainingMode
          initializationVectorMode := .none } ∧
      selectEncryptionMode ((named methodNames (nameOf encryptionMethod.bytes)).getD .unknown)
        chainingMode ≠ .unknown := by
  obtain ⟨cs, hcs, hmethod⟩ := h.method
  have hselected : ∀ cs ∈ implementedMethods,
      selectEncryptionMode ((named methodNames (ascii cs)).getD .unknown) .cbc ≠ .unknown := by
    decide
  have hparsed := parsedChainingMode_undocumented h.undocumented
  by_cases hcbc : ascii ['c', 'b', 'c', '-'] <+: nameOf encryptionMode.bytes
  · rw [if_pos hcbc] at hparsed
    refine ⟨.cbc, volumeParseEncryptionMode_undocumented h.undocumented hparsed header, ?_⟩
    rw [hmethod]
    exact hselected cs hcs
  · obtain hno | ⟨haes, hxts⟩ := h.chaining
    · exact absurd hno hcbc
    · rw [if_neg hcbc, if_pos hxts] at hparsed
      refine ⟨.xts, volumeParseEncryptionMode_undocumented h.undocumented hparsed header, ?_⟩
      rw [haes]
      decide

/-- A key of 32 bytes is accepted in every mode. -/
theorem keySizeAccepted_of_acceptsKeys (hk : L.AcceptsKeys) {mode : EncryptionMode}
    (hmode : mode ≠ .unknown) : keySizeAccepted L 32 mode = true := by
  obtain ⟨haes, hblowfish, hrc4, hserpent⟩ := hk.keySize
  cases mode with
  | unknown => exact absurd rfl hmode
  | aesCbc | aesEcb => exact haes
  | aesXts => exact hk.tweakedKeySize
  | blowfishCbc | blowfishEcb => exact hblowfish
  | rc4Cbc | rc4Ecb => exact hrc4
  | serpentCbc | serpentEcb => exact hserpent

/-- A context in a supported mode, without an initialization vector mode. -/
theorem createContext_none (hk : L.AcceptsKeys) {header : VolumeHeader}
    (hmode : selectEncryptionMode header.encryptionMethod header.encryptionChainingMode ≠ .unknown)
    (hnone : header.initializationVectorMode = .none) {key : List UInt8} (hkey : key.length = 32) :
    ∃ context, createContext L false false header key = some context ∧
      context.initializationVectorMode = .none := by
  have hsome : (createContext L false false header key).isSome = true := by
    rw [createContext_isSome]
    refine ⟨?_, by rw [hkey]; decide, by rw [hkey]; exact keySizeAccepted_of_acceptsKeys hk hmode⟩
    rw [encryptionContextInitialize, hnone]
    simp only
    rw [if_neg hmode, if_neg Bool.false_ne_true, if_neg (by decide)]
    rfl
  obtain ⟨context, hcontext⟩ := Option.isSome_iff_exists.1 hsome
  refine ⟨context, hcontext, ?_⟩
  rw [createContext_eq hcontext, keyedContext_initializationVectorMode, hnone]

/-! ### A volume with given names -/

/-- The master key of a volume with given names. -/
def namedKey : List UInt8 := List.replicate 32 0

/-- The digest of the master key under the salt of the small volume. -/
def namedKeyDigest (L : Libraries) (hashingMethod : HashingMethod) : List UInt8 :=
  (passwordPbkdf2 L false (some namedKey) hashingMethod smallSalt.bytes 1 20).getD []

/-- The header of a volume with given names. -/
def namedRecord (L : Libraries) (encryptionMethod encryptionMode hashingMethod : Buffer 32)
    (text : Buffer 40) : HeaderRecord :=
  { smallRecord with
    encryptionMethod := encryptionMethod
    encryptionMode := encryptionMode
    hashingMethod := hashingMethod
    masterKeySize := 32
    masterKeyValidationHash := .ofBytes 20 (namedKeyDigest L
      ((named hashNames (nameOf hashingMethod.bytes)).getD .unknown))
    volumeIdentifier := text }

/-- The file of a volume with given names and a sector of data. -/
def namedFile (L : Libraries) (encryptionMethod encryptionMode hashingMethod : Buffer 32)
    (text : Buffer 40) : FileIoHandle :=
  volumeFile (namedRecord L encryptionMethod encryptionMode hashingMethod text) smallData
    length_smallData

section

variable {encryptionMethod encryptionMode hashingMethod : Buffer 32} {text : Buffer 40}

theorem namedFile_hasNames :
    HasNames (namedFile L encryptionMethod encryptionMode hashingMethod text) encryptionMethod
      encryptionMode hashingMethod := by
  obtain ⟨-, hmethod, hmode, hhash, -⟩ := encodeHeader_fields
    (namedRecord L encryptionMethod encryptionMode hashingMethod text)
    (List.replicate 3504 0 ++ smallData)
  obtain ⟨hversion, -⟩ := encodeHeader_numbers
    (namedRecord L encryptionMethod encryptionMode hashingMethod text)
    (List.replicate 3504 0 ++ smallData)
  have himage : (namedFile L encryptionMethod encryptionMode hashingMethod text).image =
      encodeHeader (namedRecord L encryptionMethod encryptionMode hashingMethod text) ++
        (List.replicate 3504 0 ++ smallData) := List.append_assoc _ _ _
  refine ⟨?_, by rw [himage, hmethod]; rfl, by rw [himage, hmode]; rfl, by rw [himage, hhash]; rfl⟩
  rw [← hversion, ← himage]
  simp [byteStreamCopyToUInt16BigEndian, byteAt, slice, List.getD]

theorem namedFile_headerOf {identifier : Buffer 16}
    (hidentifier : L.identifierFromUtf8String text.bytes = some identifier) :
    HeaderOf L {} (namedFile L encryptionMethod encryptionMode hashingMethod text)
      ((namedRecord L encryptionMethod encryptionMode hashingMethod text).volumeHeader
        identifier) := by
  have hsize : (32 : UInt32).toNat ≠ 0 ∧ (32 : UInt32).toNat ≤ 64 := by decide
  have hlength : smallData.length = 1024 := by decide +kernel
  refine headerOf_volumeFile length_smallData hidentifier hsize ?_
  rw [volumeFile, List.length_append, List.length_append, length_encodeHeader,
    List.length_replicate, hlength]
  show (8 : UInt32).toNat < (592 + 3504 + 1024) / 512
  decide

theorem passwordPbkdf2_namedKey {h : HashingMethod} (hh : hashSize h ≠ none) :
    passwordPbkdf2 L false (some namedKey) h smallSalt.bytes 1 20 = some (namedKeyDigest L h) := by
  obtain ⟨n, hn⟩ := Option.ne_none_iff_exists'.1 hh
  have hblocks := Lib.Pbkdf2.numberOfBlocks_le (hashSize_pos hn) 20
  have hpbkdf2 : passwordPbkdf2 L false (some namedKey) h smallSalt.bytes 1 20 =
      some (Lib.Pbkdf2.derivedKey (L.hmac h) namedKey smallSalt.bytes n 1 20) :=
    passwordPbkdf2_eq hn (by decide) (by rw [smallSalt.length_eq]; decide) (le_refl 1)
      (Nat.lt_of_le_of_lt hblocks (by decide))
  rw [namedKeyDigest, hpbkdf2, Option.getD_some]

/-- The master key has the digest that the header gives. -/
theorem masterKeyIsValid_namedRecord (identifier : Buffer 16)
    (hhash : hashSize ((named hashNames (nameOf hashingMethod.bytes)).getD .unknown) ≠ none) :
    masterKeyIsValid L false
      ((namedRecord L encryptionMethod encryptionMode hashingMethod text).volumeHeader identifier)
      namedKey = some true := by
  have hpbkdf2 := passwordPbkdf2_namedKey (L := L) hhash
  have hlength := passwordPbkdf2_length hpbkdf2
  rw [masterKeyIsValid]
  change Option.map _ (passwordPbkdf2 L false (some namedKey)
    ((named hashNames (nameOf hashingMethod.bytes)).getD .unknown) smallSalt.bytes 1 20) = _
  rw [hpbkdf2]
  change some (_ == (Buffer.ofBytes 20 (namedKeyDigest L
    ((named hashNames (nameOf hashingMethod.bytes)).getD .unknown))).bytes) = _
  rw [Buffer.bytes_ofBytes hlength, beq_self_eq_true]

/-- The master key is set and the volume is opened. -/
def namedSession (L : Libraries) (encryptionMethod encryptionMode hashingMethod : Buffer 32)
    (text : Buffer 40) : List Operation :=
  [.setKey namedKey,
    .openFileIoHandle {} (namedFile L encryptionMethod encryptionMode hashingMethod text) 1]

/-- A volume whose names pass unchecked opens and is unlocked, without an initialization vector
mode. -/
theorem PassesUnchecked.opens (hk : L.AcceptsKeys)
    (hp : PassesUnchecked encryptionMethod encryptionMode hashingMethod) {identifier : Buffer 16}
    (hidentifier : L.identifierFromUtf8String text.bytes = some identifier) :
    let v := volumeAfter L (namedSession L encryptionMethod encryptionMode hashingMethod text)
    v.fileIoHandle = some (namedFile L encryptionMethod encryptionMode hashingMethod text) ∧
      v.isLocked = false ∧ v.ioHandle.encryptedVolumeSize = 1024 ∧
      ∃ c, v.encryptionContext = some c ∧ c.initializationVectorMode = .none := by
  let file := namedFile L encryptionMethod encryptionMode hashingMethod text
  let header := (namedRecord L encryptionMethod encryptionMode hashingMethod text).volumeHeader
    identifier
  obtain ⟨chainingMode, hparsed, hmode⟩ := hp.parsed .cleared
  have hset := ((namedRecord L encryptionMethod encryptionMode hashingMethod
    text).volumeParseEncryptionMode .cleared rfl rfl rfl).symm.trans hparsed
  have hchaining : header.encryptionChainingMode = chainingMode :=
    congrArg VolumeHeader.encryptionChainingMode hset
  have hvector : header.initializationVectorMode = .none :=
    congrArg VolumeHeader.initializationVectorMode hset
  obtain ⟨cs, hcs, hhash⟩ := hp.hash
  have himplemented : ∀ cs ∈ implementedHashes,
      hashSize ((named hashNames (ascii cs)).getD .unknown) ≠ none := by decide
  have hvalid : masterKeyIsValid L false header namedKey = some true :=
    masterKeyIsValid_namedRecord identifier (by rw [hhash]; exact himplemented cs hcs)
  obtain ⟨context, hcontext, hnone⟩ : ∃ context,
      createContext L false false header namedKey = some context ∧
        context.initializationVectorMode = .none :=
    createContext_none hk (by rw [hchaining]; exact hmode) hvector rfl
  -- the key that is set is the one that the header was made for
  let v := (volumeSetKey volumeInitialize namedKey).1
  have hkey : (v.beforeUnlock file header).masterKey.bytes.take
      (v.beforeUnlock file header).masterKeySize = namedKey := by
    show ((Buffer.zero 64).write 0 namedKey).bytes.take 32 = namedKey
    decide
  have hheaderOf : HeaderOf L {} file header := namedFile_headerOf hidentifier
  have hreach : ReachesUnlock L {} v file 1 header :=
    ⟨rfl, by decide, rfl, hheaderOf, hheaderOf.openReadHeader rfl rfl ⟨rfl, rfl, rfl, rfl⟩ rfl⟩
  have hunlock := internalVolumeUnlock_setKey (L := L) (v := v.beforeUnlock file header) rfl rfl rfl
    rfl (by rw [hkey]; exact hvalid) (by rw [hkey]; exact hcontext) (some file.opened)
  have hopen := hreach.opened rfl rfl rfl (by decide) hunlock
  have hafter : volumeAfter L (namedSession L encryptionMethod encryptionMode hashingMethod text)
      = (volumeOpenFileIoHandle L {} v file 1).1 := rfl
  rw [hafter, hopen]
  have hsize : file.image.length - 8 * 512 = 1024 := by
    have hlength : smallData.length = 1024 := by decide +kernel
    show (_ ++ _ ++ smallData).length - 8 * 512 = 1024
    rw [List.length_append, List.length_append, length_encodeHeader, List.length_replicate, hlength]
  exact ⟨rfl, rfl, hsize, context, rfl, hnone⟩

end

/-- The data that a call of a session reads. -/
theorem step_readBufferAtOffset_data (env : ReadEnvironment) (size : ℕ) (offset : Off64)
    (v : Volume) : (step L (.readBufferAtOffset env size offset) v).2.data =
      (volumeReadBufferAtOffset L env v size offset.1).2.data := rfl

/-- **An unsupported specification never decrypts**, but for initialization vector modes that are not
recognized behind a chaining mode: names that are not documented never give data exactly when they
do not pass the checks. -/
theorem neverReads_iff (hL : L.DecryptsSectors) (hk : L.AcceptsKeys)
    (encryptionMethod encryptionMode hashingMethod : Buffer 32) :
    (¬ Documented encryptionMethod encryptionMode hashingMethod →
        NeverReads L encryptionMethod encryptionMode hashingMethod) ↔
      ¬ PassesUnchecked encryptionMethod encryptionMode hashingMethod := by
  constructor
  · intro hnever hp
    obtain ⟨text, identifier, hidentifier⟩ := hk.identifier
    obtain ⟨hopen, hlocked, hsize, c, hc, hnone⟩ := hp.opens hk hidentifier
    -- the first sector is read with zero bytes as initialization vector
    have hcount : (volumeReadBufferAtOffset L {} (volumeAfter L (namedSession L encryptionMethod
        encryptionMode hashingMethod text)) 512 (0 : ℕ)).2.count = (512 : ℕ) := by
      have hwhole := (volumeAfter_wellformed (L := L) _).opened _ hopen
      have hfits := hwhole.readPlace_fits (by rw [hsize]; decide) (o := 0) (by rw [hsize]; decide)
        512
      have hcomplete := volumeReadBufferAtOffset_count_iff hL _ hopen hlocked (o := 0) (n := 512)
        (by rw [hsize]; decide) (by decide)
      rw [hsize] at hcomplete
      exact hcomplete.2 ⟨by decide, ⟨c, hc, by rw [hnone]; exact ⟨by decide, by decide⟩⟩, hfits⟩ {}
        ReadEnvironment.reliable_default
    obtain ⟨start, hstart⟩ : ∃ start : Off64, start.1 = 0 := ⟨⟨0, by decide⟩, rfl⟩
    have hdata := hnever (fun hd => hp.undocumented hd.mode) _ _ hopen namedFile_hasNames
      (.readBufferAtOffset {} 512 start)
    have hlength := volumeReadBufferAtOffset_count_eq (volumeAfter_wellformed (L := L) _) hopen
      hlocked {} 512 (o := 0) (by decide) (by rw [hcount]; decide)
    have hempty : (volumeReadBufferAtOffset L {} (volumeAfter L (namedSession L encryptionMethod
        encryptionMode hashingMethod text)) 512 (0 : ℕ)).2.data = [] := by
      rw [Nat.cast_zero, ← hstart, ← step_readBufferAtOffset_data]
      exact hdata
    rw [hcount, hempty] at hlength
    exact absurd hlength (by decide)
  · exact fun hchecked hdocumented => neverReads_of_checked hdocumented hchecked

/-! ### An initialization vector mode that is not documented -/

theorem smallLibraries_acceptsKeys : smallLibraries.AcceptsKeys where
  identifier := ⟨zeroIdentifier, .zero 16, rfl⟩
  keySize := by decide
  tweakedKeySize := by decide

/-- `cbc-foo` -/
def unknownVectorMode : Buffer 32 := .ofBytes 32 (ascii ['c', 'b', 'c', '-', 'f', 'o', 'o'])

theorem neverReads_iff_cbc :
    (¬ Documented smallRecord.encryptionMethod unknownVectorMode smallRecord.hashingMethod →
        NeverReads smallLibraries smallRecord.encryptionMethod unknownVectorMode
          smallRecord.hashingMethod) ↔
      ¬ PassesUnchecked smallRecord.encryptionMethod unknownVectorMode smallRecord.hashingMethod :=
  neverReads_iff (L := smallLibraries) (Libraries.ofTables_decryptsSectors _ _ _)
    smallLibraries_acceptsKeys _ _ _

/-- The small volume with the encryption mode `cbc-foo`. -/
def unknownVectorModeFile : FileIoHandle :=
  volumeFile { smallRecord with encryptionMode := unknownVectorMode } smallData length_smallData

/-- The small volume is decrypted in the mode `cbc-foo`. -/
theorem unknownVectorMode_reads :
    ¬ Documented smallRecord.encryptionMethod unknownVectorMode smallRecord.hashingMethod ∧
      ¬ NeverReads smallLibraries smallRecord.encryptionMethod unknownVectorMode
        smallRecord.hashingMethod := by
  constructor
  · intro h
    exact absurd h.mode (by decide)
  · intro hnever
    have hopen : (volumeAfter smallLibraries
        [.setKey smallKey, .openFileIoHandle {} unknownVectorModeFile 1]).fileIoHandle
          = some unknownVectorModeFile :=
      volumeAfter_fileIoHandle [.setKey smallKey] (by decide +kernel)
    have hnames : HasNames unknownVectorModeFile smallRecord.encryptionMethod unknownVectorMode
        smallRecord.hashingMethod := by
      constructor <;> decide +kernel
    have hdata := hnever _ _ hopen hnames (.readBuffer {} 512)
    have hlength : (step smallLibraries (.readBuffer {} 512) (volumeAfter smallLibraries
        [.setKey smallKey, .openFileIoHandle {} unknownVectorModeFile 1])).2.data.length = 512 := by
      decide +kernel
    rw [hdata] at hlength
    cases hlength

end Libluksde
