import Mathlib.Data.Set.Function
import Btfind.Dht.Packets
import Btfind.Wire.Codec

/-!
# Tokens of announcements

A token is the keyed digest of an address and of a bucket of five minutes. If the digest has no
collisions on such inputs, a token is good for its address alone, in its bucket and the next one.
-/

namespace Btfind

variable {sha1 : Bytes → Bytes} {secret : Bytes} {ip ip' : Ipv4Addr} {bucket bucket' t t' : Nat}

/-! ## Comparison in constant time -/

theorem byte_or_eq_zero {a b : UInt8} : a ||| b = 0 ↔ a = 0 ∧ b = 0 := by
  simp only [← UInt8.toNat_inj, UInt8.toNat_or, UInt8.toNat_zero]
  exact Nat.or_eq_zero_iff

/-- A difference that was found is not lost. -/
theorem foldl_difference_eq_zero (l : List (UInt8 × UInt8)) (start : UInt8) :
    l.foldl (fun difference e => difference ||| (e.1 ^^^ e.2)) start = 0 ↔
      start = 0 ∧ ∀ e ∈ l, e.1 = e.2 := by
  induction l generalizing start with
  | nil => simp
  | cons e l ih =>
    rw [List.foldl_cons, ih, byte_or_eq_zero, UInt8.xor_eq_zero_iff, List.forall_mem_cons, and_assoc]

theorem eq_of_forall_mem_zip {left right : Bytes} (hlength : left.length = right.length)
    (h : ∀ e ∈ left.zip right, e.1 = e.2) : left = right := by
  refine List.ext_getElem hlength fun i hi hi' => ?_
  have hzip : i < (left.zip right).length := by
    rw [List.length_zip]
    omega
  have he := h _ (List.getElem_mem hzip)
  rwa [List.getElem_zip] at he

theorem constantTimeEq_iff (left right : Bytes) : constantTimeEq left right = true ↔ left = right := by
  rw [constantTimeEq]
  by_cases hlength : left.length = right.length
  · rw [if_neg (not_not_intro hlength), decide_eq_true_iff, foldl_difference_eq_zero]
    constructor
    · exact fun h => eq_of_forall_mem_zip hlength h.2
    · rintro rfl
      refine ⟨rfl, fun e he => ?_⟩
      obtain ⟨i, hi, rfl⟩ := List.getElem_of_mem he
      rw [List.getElem_zip]
  · rw [if_pos hlength]
    exact iff_of_false Bool.false_ne_true fun heq => hlength (congrArg List.length heq)

/-! ## Inputs of the digest -/

theorem tokenInput_length (ip : Ipv4Addr) (bucket : Nat) :
    (ip.octets ++ toBeBytes 8 bucket).length = 12 := by
  rw [List.length_append, length_toBeBytes]
  rfl

theorem octets_injective : Function.Injective Ipv4Addr.octets := by
  rintro ⟨a, b, c, d⟩ ⟨a', b', c', d'⟩ h
  simp only [Ipv4Addr.octets, List.cons.injEq] at h
  obtain ⟨rfl, rfl, rfl, rfl, -⟩ := h
  rfl

/-- The address and the bucket can be read back. -/
theorem tokenInput_inj (hbucket : bucket < 2 ^ 64) (hbucket' : bucket' < 2 ^ 64) :
    ip.octets ++ toBeBytes 8 bucket = ip'.octets ++ toBeBytes 8 bucket' ↔
      ip = ip' ∧ bucket = bucket' := by
  constructor
  · intro h
    obtain ⟨hip, hbytes⟩ := List.append_inj h rfl
    refine ⟨octets_injective hip, ?_⟩
    have hread := congrArg ofBeBytes hbytes
    rwa [ofBeBytes_toBeBytes hbucket, ofBeBytes_toBeBytes hbucket'] at hread
  · rintro ⟨rfl, rfl⟩
    rfl

/-- No two inputs of twelve bytes have one digest under the secret. -/
def CollisionFree (sha1 : Bytes → Bytes) (secret : Bytes) : Prop :=
  Set.InjOn (hmacSha1 sha1 secret) {data | data.length = 12}

theorem CollisionFree.token_inj (h : CollisionFree sha1 secret) (hbucket : bucket < 2 ^ 64)
    (hbucket' : bucket' < 2 ^ 64) :
    makeTokenForBucket sha1 secret ip bucket = makeTokenForBucket sha1 secret ip' bucket' ↔
      ip = ip' ∧ bucket = bucket' := by
  rw [← tokenInput_inj hbucket hbucket']
  exact h.eq_iff (tokenInput_length ip bucket) (tokenInput_length ip' bucket')

/-! ## Validation -/

/-- The tokens of the current bucket and of the one before are accepted, and no others. -/
theorem validateToken_iff (sha1 : Bytes → Bytes) (secret : Bytes) (ip : Ipv4Addr) (unixTime : Nat)
    (token : Bytes) : validateToken sha1 secret ip unixTime token = true ↔
      token = makeTokenForBucket sha1 secret ip (unixTime / 300) ∨
        token = makeTokenForBucket sha1 secret ip (unixTime / 300 - 1) := by
  rw [validateToken, Bool.or_eq_true, constantTimeEq_iff, constantTimeEq_iff]
  rfl

theorem CollisionFree.validateToken_makeToken (h : CollisionFree sha1 secret) (hle : t ≤ t')
    (hbound : t' < 2 ^ 64) :
    validateToken sha1 secret ip' t' (makeToken sha1 secret ip t) = true ↔
      ip = ip' ∧ t' / 300 - t / 300 ≤ 1 := by
  have hbuckets : t / 300 ≤ t' / 300 := Nat.div_le_div_right hle
  have hsmall : t' / 300 < 2 ^ 64 := lt_of_le_of_lt (Nat.div_le_self _ _) hbound
  rw [validateToken_iff, makeToken, tokenBucket, h.token_inj (by omega) hsmall,
    h.token_inj (by omega) (by omega), ← and_or_left]
  -- The first bucket has no bucket before it.
  have hrecent : t / 300 = t' / 300 ∨ t / 300 = t' / 300 - 1 ↔ t' / 300 - t / 300 ≤ 1 := by omega
  rw [hrecent]

/-- A token is accepted from its address for at least five minutes, for less than ten, and from
no other address. -/
theorem announce_tokens (sha1 : Bytes → Bytes) (secret : Bytes) :
    (CollisionFree sha1 secret → ∀ ip ip' t t', t ≤ t' → t' < 2 ^ 64 →
      (validateToken sha1 secret ip' t' (makeToken sha1 secret ip t) = true ↔
        ip = ip' ∧ t' / 300 - t / 300 ≤ 1) ∧
      (t' ≤ t + 300 → validateToken sha1 secret ip t' (makeToken sha1 secret ip t) = true) ∧
      (ip ≠ ip' → validateToken sha1 secret ip' t' (makeToken sha1 secret ip t) = false) ∧
      (t + 600 ≤ t' → validateToken sha1 secret ip' t' (makeToken sha1 secret ip t) = false)) ∧
    (∀ ip t token, validateToken sha1 secret ip t token = true ↔
      token = makeTokenForBucket sha1 secret ip (t / 300) ∨
        token = makeTokenForBucket sha1 secret ip (t / 300 - 1)) ∧
    ∀ left right, constantTimeEq left right = true ↔ left = right := by
  refine ⟨fun h ip ip' t t' hle hbound => ?_, validateToken_iff sha1 secret, constantTimeEq_iff⟩
  have hiff : ∀ ip', validateToken sha1 secret ip' t' (makeToken sha1 secret ip t) = true ↔
      ip = ip' ∧ t' / 300 - t / 300 ≤ 1 := fun _ => h.validateToken_makeToken hle hbound
  refine ⟨hiff ip', fun hsoon => ?_, fun hother => ?_, fun hlate => ?_⟩
  · exact (hiff ip).mpr ⟨rfl, by omega⟩
  · exact Bool.eq_false_iff.mpr fun hvalid => hother ((hiff ip').mp hvalid).1
  · have hold := fun hvalid => ((hiff ip').mp hvalid).2
    exact Bool.eq_false_iff.mpr fun hvalid => absurd (hold hvalid) (by omega)

/-- In place of SHA-1: what follows the first block, cut or filled to the length of a digest. -/
def afterBlock (data : Bytes) : Bytes := (data.drop 64 ++ List.replicate 20 0).take 20

theorem collisionFree_afterBlock : CollisionFree afterBlock (List.replicate 16 7) := by
  have hdigest : ∀ data : Bytes, data.length = 12 →
      hmacSha1 afterBlock (List.replicate 16 7) data = data ++ List.replicate 8 0 := by
    intro data hlength
    match data, hlength with
    | [_, _, _, _, _, _, _, _, _, _, _, _], _ => rfl
  intro data hdata data' hdata' h
  rw [hdigest data hdata, hdigest data' hdata'] at h
  exact (List.append_inj' h rfl).1

/-- The last second and the first one after it. -/
theorem announce_tokens_edge :
    let token := makeToken afterBlock (List.replicate 16 7) ⟨1, 1, 1, 1⟩ 0
    validateToken afterBlock (List.replicate 16 7) ⟨1, 1, 1, 1⟩ 599 token = true ∧
      validateToken afterBlock (List.replicate 16 7) ⟨1, 1, 1, 1⟩ 600 token = false ∧
      validateToken afterBlock (List.replicate 16 7) ⟨1, 1, 1, 2⟩ 0 token = false := by
  have h := (announce_tokens afterBlock (List.replicate 16 7)).1 collisionFree_afterBlock
  refine ⟨?_, ?_, ?_⟩
  · exact (h ⟨1, 1, 1, 1⟩ ⟨1, 1, 1, 1⟩ 0 599 (by decide) (by decide)).1.mpr ⟨rfl, by decide⟩
  · exact (h ⟨1, 1, 1, 1⟩ ⟨1, 1, 1, 1⟩ 0 600 (by decide) (by decide)).2.2.2 (by decide)
  · exact (h ⟨1, 1, 1, 1⟩ ⟨1, 1, 1, 2⟩ 0 0 (by decide) (by decide)).2.2.1 (by decide)

end Btfind
