import Libluksde.Diffuser

/-!
# Splitting and merging a key

The anti-forensic split of a key in stripes: all stripes but the last are arbitrary, and the last
one is the key, with the chain of the stripes before it added.  The merge computes the same chain
and gives the key back, whatever is behind the stripes.
-/

namespace Lib.Bytes.Buffer

variable {n : ℕ}

/-- The bytewise exclusive or of two buffers. -/
def xor (a b : Buffer n) : Buffer n := ⟨Bytes.xor a.bytes b.bytes, by simp⟩

@[simp] theorem bytes_xor (a b : Buffer n) : (a.xor b).bytes = Bytes.xor a.bytes b.bytes := rfl

theorem xor_comm (a b : Buffer n) : a.xor b = b.xor a := by
  ext1
  exact Bytes.xor_comm a.bytes b.bytes

theorem xor_xor_cancel (a b : Buffer n) : (a.xor b).xor b = a := by
  ext1
  exact Bytes.xor_xor_cancel (by rw [a.length_eq, b.length_eq])

theorem xor_bijective (a : Buffer n) : Function.Bijective a.xor := by
  constructor
  · intro b c hbc
    have h := congrArg (fun d : Buffer n => d.xor a) hbc
    simp only [xor_comm a, xor_xor_cancel] at h
    exact h
  · intro b
    refine ⟨b.xor a, ?_⟩
    rw [xor_comm, xor_xor_cancel]

end Lib.Bytes.Buffer

namespace Libluksde

open Lib.Bytes

variable {L : Libraries} {h : HashingMethod} {m : ℕ}

/-! ## The chain of the stripes -/

/-- A diffused buffer. -/
def diffuse (L : Libraries) (h : HashingMethod) (data : Buffer m) : Buffer m :=
  ⟨(diffuserDiffuse L false data.bytes h).1, by simp⟩

/-- The chain from a buffer on: each stripe is added by exclusive or, and the sum is diffused. -/
def chainFrom (L : Libraries) (h : HashingMethod) : Buffer m → List (Buffer m) → Buffer m
  | c, [] => c
  | c, stripe :: stripes => chainFrom L h (diffuse L h (c.xor stripe)) stripes

/-- The chain begins with zero bytes. -/
def chain (L : Libraries) (h : HashingMethod) (stripes : List (Buffer m)) : Buffer m :=
  chainFrom L h (.zero m) stripes

/-- The bytes of stripes, one after the other. -/
def stripesBytes (stripes : List (Buffer m)) : List UInt8 := stripes.flatMap Buffer.bytes

/-- The split of a key, whose first stripes are given. -/
def splitKey (L : Libraries) (h : HashingMethod) (stripes : List (Buffer m)) (key : Buffer m) :
    List UInt8 :=
  stripesBytes stripes ++ (key.xor (chain L h stripes)).bytes

@[simp] theorem stripesBytes_cons (stripe : Buffer m) (stripes : List (Buffer m)) :
    stripesBytes (stripe :: stripes) = stripe.bytes ++ stripesBytes stripes := List.flatMap_cons

@[simp] theorem length_stripesBytes (stripes : List (Buffer m)) :
    (stripesBytes stripes).length = stripes.length * m := by
  induction stripes with
  | nil => simp [stripesBytes]
  | cons stripe stripes ih =>
    rw [stripesBytes_cons, List.length_append, ih, stripe.length_eq, List.length_cons,
      Nat.succ_mul, Nat.add_comm]

/-! ## Merging -/

/-- The window over a stripe. -/
theorem slice_stripe (before : List UInt8) (stripe : Buffer m) (rest : List UInt8) :
    slice before.length m (before ++ (stripe.bytes ++ rest)) = stripe.bytes := by
  rw [slice_append_right le_rfl, Nat.sub_self, slice_zero_append stripe.length_eq]

/-- The merge loops compute the chain from the buffer on, and add the last stripe. -/
theorem mergeStripes_chainFrom (hh : hashSize h ≠ none) (hm : m ≤ 2 ^ 32 - 1)
    (stripes : List (Buffer m)) (c last : Buffer m) (before extra : List UInt8) :
    mergeStripes L (fun _ => false) (before ++ (stripesBytes stripes ++ (last.bytes ++ extra))) h
        stripes.length before.length c.bytes =
      (((chainFrom L h c stripes).xor last).bytes, true) := by
  induction stripes generalizing c before with
  | nil =>
    rw [List.length_nil, mergeStripes, c.length_eq]
    simp only [stripesBytes, List.flatMap_nil, List.nil_append, slice_stripe, chainFrom,
      Buffer.bytes_xor]
  | cons stripe stripes ih =>
    obtain ⟨size, hsize⟩ := Option.ne_none_iff_exists'.1 hh
    rw [stripesBytes_cons, List.append_assoc, List.length_cons, mergeStripes, c.length_eq,
      slice_stripe]
    -- the round diffuses the sum, and goes on behind the stripe
    have hok : (diffuserDiffuse L false (c.xor stripe).bytes h).2 = true :=
      diffuserDiffuse_ok hsize (by rw [Buffer.length_eq]; exact hm)
    have hround : diffuserDiffuse L false (xor c.bytes stripe.bytes) h =
        ((diffuse L h (c.xor stripe)).bytes, true) := Prod.ext rfl hok
    have hnext := ih (diffuse L h (c.xor stripe)) (before ++ stripe.bytes)
    rw [List.length_append, stripe.length_eq, List.append_assoc] at hnext
    rw [hround]
    exact hnext

/-- The checks of a merge. -/
theorem diffuserMerge_eq (fails : ℕ → Bool) (split data : List UInt8) (n : ℕ) (h : HashingMethod) :
    diffuserMerge L fails split data n h =
      if 0 < data.length ∧ 1 ≤ n ∧ data.length * n ≤ split.length ∧ split.length ≤ ssizeMax then
        mergeStripes L fails split h (n - 1) 0 (List.replicate data.length 0)
      else (data, false) := by
  rw [diffuserMerge]
  by_cases hpos : 0 < data.length
  · have hdiv : n ≤ split.length / data.length ↔ data.length * n ≤ split.length := by
      rw [Nat.le_div_iff_mul_le hpos, Nat.mul_comm]
    have hle : 1 ≤ n → data.length ≤ data.length * n := Nat.le_mul_of_pos_right _
    split_ifs <;> first | rfl | omega
  · split_ifs <;> first | rfl | omega

/-- A merge of stripes of which the last one is given. -/
theorem diffuserMerge_stripes (hh : hashSize h ≠ none) (hm : 1 ≤ m ∧ m ≤ 2 ^ 32 - 1)
    (stripes : List (Buffer m)) (last : Buffer m) (extra : List UInt8) {data : List UInt8}
    (hdata : data.length = m) (hsize : (stripes.length + 1) * m + extra.length ≤ ssizeMax) :
    diffuserMerge L (fun _ => false) (stripesBytes stripes ++ last.bytes ++ extra) data
        (stripes.length + 1) h = (((chain L h stripes).xor last).bytes, true) := by
  have hlength : (stripesBytes stripes ++ last.bytes ++ extra).length =
      m * (stripes.length + 1) + extra.length := by
    rw [List.length_append, List.length_append, length_stripesBytes, last.length_eq, Nat.mul_succ,
      Nat.mul_comm]
  have hmerge := mergeStripes_chainFrom (L := L) hh hm.2 stripes (.zero m) last [] extra
  rw [List.nil_append, List.length_nil, ← List.append_assoc] at hmerge
  rw [Nat.mul_comm] at hsize
  rw [diffuserMerge_eq, hlength, hdata, if_pos ⟨hm.1, Nat.succ_pos _, Nat.le_add_right _ _, hsize⟩]
  exact hmerge

/-- The merge of the split of a key. -/
theorem diffuserMerge_split (hh : hashSize h ≠ none) (hm : 1 ≤ m ∧ m ≤ 2 ^ 32 - 1)
    (stripes : List (Buffer m)) (key : Buffer m) (extra : List UInt8) {data : List UInt8}
    (hdata : data.length = m) (hsize : (stripes.length + 1) * m + extra.length ≤ ssizeMax) :
    diffuserMerge L (fun _ => false) (splitKey L h stripes key ++ extra) data
      (stripes.length + 1) h = (key.bytes, true) := by
  rw [splitKey, diffuserMerge_stripes hh hm stripes _ extra hdata hsize, Buffer.xor_comm,
    Buffer.xor_xor_cancel]

/-! ## What a merge reads -/

/-- The merge loops only look at the stripes. -/
theorem mergeStripes_congr (fails : ℕ → Bool) {split split' : List UInt8} (n : ℕ)
    {offset : ℕ} {data : List UInt8}
    (hsame : split.take (offset + (n + 1) * data.length) =
      split'.take (offset + (n + 1) * data.length))
    (hsplit : offset + (n + 1) * data.length ≤ split.length)
    (hsplit' : offset + (n + 1) * data.length ≤ split'.length) :
    mergeStripes L fails split h n offset data = mergeStripes L fails split' h n offset data := by
  induction n generalizing offset data with
  | zero =>
    rw [mergeStripes, mergeStripes, slice_of_take_eq hsame (by omega)]
  | succ n ih =>
    have hstripe : slice offset data.length split = slice offset data.length split' :=
      slice_of_take_eq hsame (by rw [Nat.succ_mul]; omega)
    have hlength : (diffuserDiffuse L (fails n) (xor data (slice offset data.length split')) h).1.length
        = data.length := by
      rw [length_diffuserDiffuse, length_xor, length_slice_of_le, Nat.min_self]
      rw [Nat.succ_mul] at hsplit'
      omega
    rw [mergeStripes, mergeStripes, hstripe]
    split
    · rfl
    · rename_i diffused hdiffused
      rw [hdiffused] at hlength
      have hnext : offset + (n + 1 + 1) * data.length =
          offset + data.length + (n + 1) * diffused.length := by
        rw [show diffused.length = data.length from hlength, Nat.succ_mul]
        omega
      rw [hnext] at hsame hsplit hsplit'
      exact ih hsame hsplit hsplit'

/-- A merge only looks at the stripes. -/
theorem diffuserMerge_congr_stripes (fails : ℕ → Bool) {split split' data : List UInt8} {n : ℕ}
    (hsame : split.take (data.length * n) = split'.take (data.length * n))
    (hsplit : data.length * n ≤ split.length ∧ split.length ≤ ssizeMax)
    (hsplit' : data.length * n ≤ split'.length ∧ split'.length ≤ ssizeMax) :
    diffuserMerge L fails split data n h = diffuserMerge L fails split' data n h := by
  rw [diffuserMerge_eq, diffuserMerge_eq]
  by_cases hpos : 0 < data.length ∧ 1 ≤ n
  · have hall : 0 + (n - 1 + 1) * (List.replicate data.length (0 : UInt8)).length =
        data.length * n := by
      rw [Nat.sub_add_cancel hpos.2, List.length_replicate, Nat.zero_add, Nat.mul_comm]
    rw [if_pos ⟨hpos.1, hpos.2, hsplit⟩, if_pos ⟨hpos.1, hpos.2, hsplit'⟩]
    refine mergeStripes_congr fails (n - 1) ?_ ?_ ?_
    · rw [hall]
      exact hsame
    · rw [hall]
      exact hsplit.1
    · rw [hall]
      exact hsplit'.1
  · rw [if_neg fun hno => hpos ⟨hno.1, hno.2.1⟩, if_neg fun hno => hpos ⟨hno.1, hno.2.1⟩]

/-! ## Merging inverts splitting -/

/-- **Merging inverts splitting.**  For every supported hashing method and all first stripes, the
merge of the split of a key gives the key, whatever the buffer holds and whatever follows the
stripes; with the first stripes fixed, the merge is a bijection in the last one.  A merge does not
depend on what is behind the stripes, and is rejected where there are less bytes than stripes. -/
theorem diffuserMerge_splitKey (hh : hashSize h ≠ none) (hm : 1 ≤ m ∧ m ≤ 2 ^ 32 - 1)
    (stripes : List (Buffer m)) :
    (∀ (key : Buffer m) (extra data : List UInt8), data.length = m →
      (stripes.length + 1) * m + extra.length ≤ ssizeMax →
      diffuserMerge L (fun _ => false) (splitKey L h stripes key ++ extra) data
        (stripes.length + 1) h = (key.bytes, true)) ∧
    (∃ merged : Buffer m → Buffer m, Function.Bijective merged ∧
      ∀ (last : Buffer m) (extra data : List UInt8), data.length = m →
        (stripes.length + 1) * m + extra.length ≤ ssizeMax →
        diffuserMerge L (fun _ => false) (stripesBytes stripes ++ last.bytes ++ extra) data
          (stripes.length + 1) h = ((merged last).bytes, true)) ∧
    (∀ (fails : ℕ → Bool) (split split' data : List UInt8) (n : ℕ),
      split.take (data.length * n) = split'.take (data.length * n) →
      data.length * n ≤ split.length ∧ split.length ≤ ssizeMax →
      data.length * n ≤ split'.length ∧ split'.length ≤ ssizeMax →
      diffuserMerge L fails split data n h = diffuserMerge L fails split' data n h) ∧
    ∀ (fails : ℕ → Bool) (split data : List UInt8) (n : ℕ), split.length < data.length * n →
      diffuserMerge L fails split data n h = (data, false) := by
  refine ⟨?_, ⟨(chain L h stripes).xor, Buffer.xor_bijective _, ?_⟩, ?_, ?_⟩
  · intro key extra data hdata hsize
    exact diffuserMerge_split hh hm stripes key extra hdata hsize
  · intro last extra data hdata hsize
    exact diffuserMerge_stripes hh hm stripes last extra hdata hsize
  · intro fails split split' data n hsame hsplit hsplit'
    exact diffuserMerge_congr_stripes fails hsame hsplit hsplit'
  · intro fails split data n hlt
    rw [diffuserMerge_eq, if_neg fun hall => absurd hall.2.2.1 (Nat.not_le.2 hlt)]

/-- SHA-1 of the stripe that is diffused, behind its index. -/
def stripeDigests : List ((HashingMethod × List UInt8) × List UInt8) :=
  [((.sha1, [0, 0, 0, 0, 1, 2]), toBigEndian 20 0x0e5a81d5fbd11d324ede6e2b9c35c13e51f99dfc)]

/-- A key of two bytes in two stripes, with SHA-1. -/
theorem diffuserMerge_splitKey_two :
    let L := Libraries.ofTables [] stripeDigests []
    let stripes : List (Buffer 2) := [.ofBytes 2 [1, 2]]
    (∀ (key : Buffer 2) (extra data : List UInt8), data.length = 2 →
      (stripes.length + 1) * 2 + extra.length ≤ ssizeMax →
      diffuserMerge L (fun _ => false) (splitKey L .sha1 stripes key ++ extra) data
        (stripes.length + 1) .sha1 = (key.bytes, true)) ∧
    (∃ merged : Buffer 2 → Buffer 2, Function.Bijective merged ∧
      ∀ (last : Buffer 2) (extra data : List UInt8), data.length = 2 →
        (stripes.length + 1) * 2 + extra.length ≤ ssizeMax →
        diffuserMerge L (fun _ => false) (stripesBytes stripes ++ last.bytes ++ extra) data
          (stripes.length + 1) .sha1 = ((merged last).bytes, true)) ∧
    (∀ (fails : ℕ → Bool) (split split' data : List UInt8) (n : ℕ),
      split.take (data.length * n) = split'.take (data.length * n) →
      data.length * n ≤ split.length ∧ split.length ≤ ssizeMax →
      data.length * n ≤ split'.length ∧ split'.length ≤ ssizeMax →
      diffuserMerge L fails split data n .sha1 = diffuserMerge L fails split' data n .sha1) ∧
    ∀ (fails : ℕ → Bool) (split data : List UInt8) (n : ℕ), split.length < data.length * n →
      diffuserMerge L fails split data n .sha1 = (data, false) :=
  diffuserMerge_splitKey (by decide) (by decide) [.ofBytes 2 [1, 2]]

end Libluksde
