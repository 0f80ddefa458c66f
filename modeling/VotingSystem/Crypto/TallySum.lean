import VotingSystem.Crypto.KeyPair
import VotingSystem.Data.Table

namespace VotingSystem.Crypto

open VotingSystem.Data VotingSystem.Number PaillierLib

/-! Combining ciphertexts and decrypting the combination. -/

section Sum

variable {modulus : Modulus}

theorem foldl_mul_mod (values : List Nat) {m start : Nat} (hstart : start < m) :
    values.foldl (fun sum value => sum * value % m) start =
      start * values.prod % m := by
  induction values generalizing start with
  | nil => simp [Nat.mod_eq_of_lt hstart]
  | cons value values ih =>
      have hpos : 0 < m := Nat.zero_lt_of_lt hstart
      rw [List.foldl_cons, ih (Nat.mod_lt _ hpos), List.prod_cons, ← mul_assoc,
        Nat.mod_mul_mod]

theorem one_lt_square (modulus : Modulus) : 1 < modulus.n ^ 2 :=
  Nat.one_lt_pow (by omega) modulus.one_lt_n

theorem paillierSum_eq_prod (hsize : modulus.n < 2 ^ 2048) (ctexts : List Bytes) :
    paillierSum ctexts (pubHex modulus) =
      ciphertextBytes ((ctexts.map mpzImport).prod % modulus.n ^ 2) := by
  have hfold :
      ctexts.foldl
          (fun sum ctext =>
            paillierMul (paillierPubkeyFromHex (pubHex modulus)) sum
              (paillierCiphertextFromBytes ctext))
          paillierCreateEncZero =
        (ctexts.map mpzImport).prod % modulus.n ^ 2 := by
    have hprod := foldl_mul_mod (ctexts.map mpzImport) (one_lt_square modulus)
    simpa [List.foldl_map, paillierMul, paillierCiphertextFromBytes,
      paillierCreateEncZero] using hprod
  rw [paillierSum, hfold]
  exact paillierCiphertextToBytes_ciphertextBytes
    (lt_ciphertext_of_lt_square hsize (Nat.mod_lt _ (Nat.zero_lt_of_lt (one_lt_square modulus))))

/-- The order of the ciphertexts does not matter, whatever the key. -/
theorem paillierSum_perm {ctexts ctexts' : List Bytes} (hperm : ctexts.Perm ctexts')
    (pubHex : String) : paillierSum ctexts pubHex = paillierSum ctexts' pubHex := by
  have hcommute : ∀ m sum left right : Nat,
      sum * left % m * right % m = sum * right % m * left % m := by
    intro m sum left right
    rw [Nat.mod_mul_mod, Nat.mod_mul_mod, mul_right_comm]
  simp only [paillierSum]
  rw [hperm.foldl_eq' fun left _ right _ sum => hcommute _ sum _ _]

theorem paillierSum_length (hsize : modulus.n < 2 ^ 2048) (ctexts : List Bytes) :
    (paillierSum ctexts (pubHex modulus)).length = pCiphertextMaxLen := by
  rw [paillierSum_eq_prod hsize, ciphertextBytes_length]

/-- A product of ciphertexts encrypts the sum of the messages under the product
of the blinding factors. -/
theorem prod_encrypt_mod (ballots : List (Nat × Nat)) :
    (ballots.map fun ballot => modulus.encrypt ballot.1 ballot.2).prod % modulus.n ^ 2 =
      modulus.encrypt (ballots.map Prod.fst).sum (ballots.map Prod.snd).prod := by
  have hfold := modulus.foldl_encrypt ballots 0 1
  rwa [modulus.encrypt_zero_one, foldl_mul_mod _ (one_lt_square modulus), one_mul,
    zero_add, one_mul] at hfold

theorem decryptedPlaintext_paillierSum (hsize : modulus.n < 2 ^ 2048)
    {ballots : List (Nat × Nat)}
    (hblinds : ∀ ballot ∈ ballots, ballot.2.Coprime modulus.n) :
    decryptedPlaintext
        (paillierSum
          (ballots.map fun ballot => ciphertextBytes (modulus.encrypt ballot.1 ballot.2))
          (pubHex modulus))
        (privHexP modulus) (privHexQ modulus) (pubHex modulus) =
      (ballots.map Prod.fst).sum % modulus.n := by
  have himport :
      (ballots.map fun ballot => ciphertextBytes (modulus.encrypt ballot.1 ballot.2)).map
          mpzImport =
        ballots.map fun ballot => modulus.encrypt ballot.1 ballot.2 := by
    rw [List.map_map]
    apply List.map_congr_left
    intro ballot _
    rw [Function.comp_apply]
    exact mpzImport_ciphertextBytes
      (lt_ciphertext_of_lt_square hsize (modulus.encrypt_lt _ _))
  have hcoprime : (ballots.map Prod.snd).prod.Coprime modulus.n := by
    apply modulus.prod_coprime
    intro blind hblind
    obtain ⟨ballot, hballot, rfl⟩ := List.mem_map.mp hblind
    exact hblinds ballot hballot
  rw [paillierSum_eq_prod hsize, himport, prod_encrypt_mod,
    decryptedPlaintext_encrypt hsize hcoprime]

end Sum

structure BlindedVote where
  vote : UInt64
  blinding : Blinding

namespace BlindedVote

def ciphertext (key : KeyPair) (blinded : BlindedVote) : Bytes :=
  paillierEnc blinded.vote (pubHex key.modulus) blinded.blinding

def tally (key : KeyPair) (votes : List BlindedVote) : UInt64 :=
  paillierDec (paillierSum (votes.map (ciphertext key)) (pubHex key.modulus))
    (privHexP key.modulus) (privHexQ key.modulus) (pubHex key.modulus)

def count (votes : List BlindedVote) : Nat :=
  (votes.map fun blinded => blinded.vote.toNat).sum

structure Binary (votes : List BlindedVote) : Prop where
  zero_or_one : ∀ blinded ∈ votes, blinded.vote = 0 ∨ blinded.vote = 1

structure Coprime (key : KeyPair) (votes : List BlindedVote) : Prop where
  coprime : ∀ blinded ∈ votes, blinded.blinding.factor.Coprime key.modulus.n

theorem Binary.encodedPlaintext_eq {votes : List BlindedVote} (hbinary : Binary votes)
    {blinded : BlindedVote} (hblinded : blinded ∈ votes) :
    encodedPlaintext blinded.vote = blinded.vote.toNat * 2 ^ 56 := by
  apply encodedPlaintext_of_lt
  rcases hbinary.zero_or_one blinded hblinded with hvote | hvote <;> simp [hvote]

theorem Binary.count_le_length {votes : List BlindedVote} (hbinary : Binary votes) :
    count votes ≤ votes.length := by
  have hle : ∀ blinded ∈ votes, blinded.vote.toNat ≤ 1 := by
    intro blinded hblinded
    rcases hbinary.zero_or_one blinded hblinded with hvote | hvote <;> simp [hvote]
  simpa [count] using sum_map_le hle

theorem decryptedPlaintext_sum {key : KeyPair} {votes : List BlindedVote}
    (hbinary : Binary votes) (hcoprime : Coprime key votes)
    (hlength : votes.length < 2 ^ 31) :
    decryptedPlaintext (paillierSum (votes.map (ciphertext key)) (pubHex key.modulus))
        (privHexP key.modulus) (privHexQ key.modulus) (pubHex key.modulus) =
      count votes * 2 ^ 56 := by
  have hpairs :
      votes.map (ciphertext key) =
        (votes.map fun blinded =>
            (encodedPlaintext blinded.vote, blinded.blinding.factor)).map
          fun ballot => ciphertextBytes (key.modulus.encrypt ballot.1 ballot.2) := by
    rw [List.map_map]
    apply List.map_congr_left
    intro blinded _
    rw [Function.comp_apply, ciphertext, paillierEnc_eq key.n_lt]
  have hplain :
      ((votes.map fun blinded =>
          (encodedPlaintext blinded.vote, blinded.blinding.factor)).map Prod.fst).sum =
        count votes * 2 ^ 56 := by
    rw [List.map_map, count, ← List.sum_map_mul_right]
    apply congrArg List.sum
    apply List.map_congr_left
    intro blinded hblinded
    rw [Function.comp_apply, hbinary.encodedPlaintext_eq hblinded]
  have hsmall : count votes * 2 ^ 56 < key.modulus.n := by
    have hcount := hbinary.count_le_length
    have hlimit : (2 : Nat) ^ 87 ≤ 2 ^ 2047 := by decide +kernel
    have hproduct : count votes * 2 ^ 56 < 2 ^ 87 := by omega
    exact hproduct.trans_le (hlimit.trans key.n_ge')
  have hblinds : ∀ ballot ∈ votes.map fun blinded =>
      (encodedPlaintext blinded.vote, blinded.blinding.factor),
      ballot.2.Coprime key.modulus.n := by
    intro ballot hballot
    obtain ⟨blinded, hblinded, rfl⟩ := List.mem_map.mp hballot
    exact hcoprime.coprime blinded hblinded
  rw [hpairs, decryptedPlaintext_paillierSum key.n_lt hblinds, hplain,
    Nat.mod_eq_of_lt hsmall]

/-- The sum is carried in the most significant of the eight plaintext bytes, so
only its lowest byte comes back. -/
theorem tally_toNat {key : KeyPair} {votes : List BlindedVote} (hbinary : Binary votes)
    (hcoprime : Coprime key votes) (hlength : votes.length < 2 ^ 31) :
    (tally key votes).toNat = count votes % 256 := by
  have hcarried : ∀ total : Nat,
      Bytes.swap 8 (total * 2 ^ 56) = Bytes.swap 8 (total % 256 * 256 ^ 7) := by
    intro total
    have hbytes : Bytes.swap 8 (Bytes.swap 8 (total * 2 ^ 56)) =
        Bytes.swap 8 (Bytes.swap 8 (total % 256 * 256 ^ 7)) := by
      rw [Bytes.swap_swap, Bytes.swap_swap]
      omega
    have hround := congrArg (Bytes.swap 8) hbytes
    rwa [Bytes.swap_swap, Bytes.swap_swap, Nat.mod_eq_of_lt (Bytes.swap_lt 8 _),
      Nat.mod_eq_of_lt (Bytes.swap_lt 8 _)] at hround
  have hlow : count votes % 256 < 256 := Nat.mod_lt _ (by omega)
  have hlt : count votes % 256 < 256 ^ 8 := by omega
  rw [tally, paillierDec_eq, decryptedPlaintext_sum hbinary hcoprime hlength, hcarried,
    ← Bytes.swap_of_lt hlow, Bytes.swap_swap, Nat.mod_eq_of_lt hlt,
    UInt64.toNat_ofNat_of_lt' (hlow.trans (by decide))]

/-- The tally is the number of votes exactly as long as that number fits in a
byte. -/
theorem tally_toNat_eq_count_iff (key : KeyPair) (votes : List BlindedVote)
    (hbinary : Binary votes) (hcoprime : Coprime key votes)
    (hlength : votes.length < 2 ^ 31) :
    (tally key votes).toNat = count votes ↔ count votes < 256 := by
  rw [tally_toNat hbinary hcoprime hlength]
  omega

theorem tally_toNat_eq_count_iff_pair :
    (tally .reference [⟨1, .drawn 1⟩, ⟨0, .custom [1]⟩]).toNat =
        count [⟨1, .drawn 1⟩, ⟨0, .custom [1]⟩] ↔
      count [⟨1, .drawn 1⟩, ⟨0, .custom [1]⟩] < 256 :=
  tally_toNat_eq_count_iff .reference [⟨1, .drawn 1⟩, ⟨0, .custom [1]⟩]
    ⟨by simp⟩
    ⟨by
      intro blinded hblinded
      have hone : mpzImport [1] = 1 := by decide
      rcases List.mem_pair.mp hblinded with rfl | rfl <;>
        simp [Blinding.factor, hone]⟩
    (by norm_num)

/-! As many equal votes as wanted. -/

def unanimous (voters : Nat) : List BlindedVote := List.replicate voters ⟨1, .drawn 1⟩

theorem unanimous_binary (voters : Nat) : Binary (unanimous voters) where
  zero_or_one := by
    intro blinded hblinded
    rw [List.eq_of_mem_replicate hblinded]
    exact .inr rfl

theorem unanimous_coprime (key : KeyPair) (voters : Nat) :
    Coprime key (unanimous voters) where
  coprime := by
    intro blinded hblinded
    rw [List.eq_of_mem_replicate hblinded]
    exact Nat.coprime_one_left _

theorem count_unanimous (voters : Nat) : count (unanimous voters) = voters := by
  have hone : (1 : UInt64).toNat = 1 := rfl
  rw [count, unanimous, List.map_replicate, List.sum_replicate, hone, smul_eq_mul, mul_one]

theorem tally_of_256_votes :
    (tally .reference (unanimous 256)).toNat ≠ count (unanimous 256) := by
  have hlength : (unanimous 256).length < 2 ^ 31 := by
    rw [unanimous, List.length_replicate]
    norm_num
  rw [tally_toNat (unanimous_binary _) (unanimous_coprime _ _) hlength, count_unanimous]
  decide

end BlindedVote

end VotingSystem.Crypto
