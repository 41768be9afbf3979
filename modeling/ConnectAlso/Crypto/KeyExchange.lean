import ConnectAlso.Misc.Aead

/-!
# Session encryption

`SessionCipher` of `crates/crypto/src/key_exchange.rs`. A packet is the 12-byte
nonce followed by the ciphertext and tag of the AEAD; the nonce is four zero
bytes and a 64-bit counter that advances, with wraparound, on every call of
`encrypt`. The AEAD itself is a parameter of the model.
-/

namespace ConnectAlso.Crypto
open Misc

/-- `NONCE_LEN`. -/
def nonceLen : Nat := 12

/-- `TAG_LEN`. -/
def tagLen : Nat := 16

/-- `CryptoError`. -/
inductive CryptoError where
  | encrypt
  | decrypt
  deriving DecidableEq, Repr

/-- `SessionCipher`: the keyed AEAD and the counter of the next nonce. -/
structure SessionCipher where
  key : Octets 32
  counter : UInt64
  deriving DecidableEq, Repr

/-- The nonce of a counter value. -/
def nonceOf (counter : UInt64) : Octets 12 :=
  ⟨[0, 0, 0, 0] ++ leBytes 8 counter.toNat, by simp⟩

/-- Different counter values make different nonces. -/
theorem nonceOf_inj {c d : UInt64} : nonceOf c = nonceOf d ↔ c = d := by
  constructor
  · intro h
    have hbytes : leBytes 8 c.toNat = leBytes 8 d.toNat := by
      simpa [nonceOf] using congrArg Octets.bytes h
    have hc := c.toNat_lt
    have hd := d.toNat_lt
    exact UInt64.toNat.inj ((leBytes_inj (by omega) (by omega)).mp hbytes)
  · intro h
    rw [h]

namespace SessionCipher

/-- `SessionCipher::new`. -/
def new (sharedSecret : Octets 32) (initCounter : UInt64) : SessionCipher :=
  { key := sharedSecret, counter := initCounter }

/-- `SessionCipher::next_nonce`. -/
def nextNonce (cipher : SessionCipher) : Octets 12 × SessionCipher :=
  (nonceOf cipher.counter, { cipher with counter := cipher.counter + 1 })

/-- `SessionCipher::encrypt`. The counter has advanced when the AEAD refuses. -/
def encrypt (aead : Aead) (cipher : SessionCipher) (plaintext : List UInt8) :
    Except CryptoError (List UInt8) × SessionCipher :=
  let (nonce, cipher) := cipher.nextNonce
  match aead.encrypt cipher.key nonce plaintext with
  | none => (.error .encrypt, cipher)
  | some ciphertext => (.ok (nonce.bytes ++ ciphertext), cipher)

/-- `SessionCipher::decrypt`. -/
def decrypt (aead : Aead) (cipher : SessionCipher) (packet : List UInt8) :
    Except CryptoError (List UInt8) :=
  if h : packet.length < nonceLen + tagLen then .error .decrypt
  else
    let nonce : Octets 12 := ⟨packet.take nonceLen, by
      rw [List.length_take, Nat.min_eq_left (by omega), nonceLen]⟩
    match aead.decrypt cipher.key nonce (packet.drop nonceLen) with
    | none => .error .decrypt
    | some plaintext => .ok plaintext

@[simp] theorem encrypt_snd (aead : Aead) (cipher : SessionCipher) (plaintext : List UInt8) :
    (cipher.encrypt aead plaintext).2 = { cipher with counter := cipher.counter + 1 } := by
  simp only [encrypt, nextNonce]
  cases aead.encrypt cipher.key (nonceOf cipher.counter) plaintext <;> rfl

/-- What `encrypt` returns: the nonce of the counter and what the AEAD makes of the
    plaintext under it. -/
theorem encrypt_eq_ok {aead : Aead} {cipher : SessionCipher} {plaintext packet : List UInt8} :
    (cipher.encrypt aead plaintext).1 = .ok packet ↔
      ∃ ciphertext, aead.encrypt cipher.key (nonceOf cipher.counter) plaintext = some ciphertext ∧
        packet = (nonceOf cipher.counter).bytes ++ ciphertext := by
  simp only [encrypt, nextNonce]
  cases aead.encrypt cipher.key (nonceOf cipher.counter) plaintext with
  | none => simp
  | some ciphertext => simp [eq_comm]

/-- A packet is 28 bytes longer than its plaintext. -/
theorem length_of_encrypt {aead : Aead} {cipher : SessionCipher} {plaintext packet : List UInt8}
    (h : (cipher.encrypt aead plaintext).1 = .ok packet) :
    packet.length = plaintext.length + 28 := by
  obtain ⟨ciphertext, hseal, rfl⟩ := encrypt_eq_ok.mp h
  rw [List.length_append, Octets.length_bytes, aead.encrypt_length hseal]
  omega

/-- Any cipher of the same key decrypts a packet to the plaintext it was made from,
    whatever the two counters. -/
theorem decrypt_of_encrypt {aead : Aead} {sender receiver : SessionCipher}
    {plaintext packet : List UInt8} (hkey : receiver.key = sender.key)
    (h : (sender.encrypt aead plaintext).1 = .ok packet) :
    receiver.decrypt aead packet = .ok plaintext := by
  have hlength := length_of_encrypt h
  obtain ⟨ciphertext, hseal, rfl⟩ := encrypt_eq_ok.mp h
  have hnonce : ((nonceOf sender.counter).bytes ++ ciphertext).take nonceLen =
      (nonceOf sender.counter).bytes := List.take_left' (Octets.length_bytes _)
  have htext : ((nonceOf sender.counter).bytes ++ ciphertext).drop nonceLen = ciphertext :=
    List.drop_left' (Octets.length_bytes _)
  have hlong : ¬ ((nonceOf sender.counter).bytes ++ ciphertext).length < nonceLen + tagLen := by
    rw [hlength, nonceLen, tagLen]
    omega
  rw [decrypt, dif_neg hlong]
  simp only [hnonce, htext, hkey]
  rw [aead.decrypt_encrypt hseal]

/-- Packets shorter than a nonce and a tag are rejected. -/
theorem decrypt_of_short (aead : Aead) (cipher : SessionCipher) {packet : List UInt8}
    (h : packet.length < 28) : cipher.decrypt aead packet = .error .decrypt :=
  dif_pos h

/-! ## Many packets -/

/-- Successive calls of `encrypt` on one cipher: their outcomes, and the cipher they
    leave. -/
def encryptAll (aead : Aead) (cipher : SessionCipher) :
    List (List UInt8) → List (Except CryptoError (List UInt8)) × SessionCipher
  | [] => ([], cipher)
  | plaintext :: rest =>
    let sent := cipher.encrypt aead plaintext
    let later := encryptAll aead sent.2 rest
    (sent.1 :: later.1, later.2)

/-- A delivery order over the outcomes of `encryptAll`: it names packets by the calls
    that made them, leaves out those that are lost, and may name one twice. A call that
    was refused has no packet. -/
def delivered (outcomes : List (Except CryptoError (List UInt8))) (order : List Nat) :
    List (Nat × List UInt8) :=
  order.filterMap fun i => (outcomes[i]?.bind Except.toOption).map (i, ·)

theorem mem_delivered {outcomes : List (Except CryptoError (List UInt8))} {order : List Nat}
    {i : Nat} {packet : List UInt8} (h : (i, packet) ∈ delivered outcomes order) :
    outcomes[i]? = some (.ok packet) := by
  obtain ⟨j, -, hj⟩ := List.mem_filterMap.mp h
  obtain ⟨made, hmade, heq⟩ := Option.map_eq_some_iff.mp hj
  obtain ⟨rfl, rfl⟩ := Prod.mk.inj heq
  obtain ⟨outcome, houtcome, hok⟩ := Option.bind_eq_some_iff.mp hmade
  cases outcome with
  | error => cases hok
  | ok made =>
      cases hok
      exact houtcome

/-- Every packet of a run was made from the plaintext of its call, by a cipher with the
    key of the run. -/
theorem getElem?_encryptAll {aead : Aead} {cipher : SessionCipher}
    {plaintexts : List (List UInt8)} {i : Nat} {packet : List UInt8}
    (h : (cipher.encryptAll aead plaintexts).1[i]? = some (.ok packet)) :
    ∃ plaintext, plaintexts[i]? = some plaintext ∧ ∃ maker : SessionCipher,
      maker.key = cipher.key ∧ (maker.encrypt aead plaintext).1 = .ok packet := by
  induction plaintexts generalizing cipher i with
  | nil => cases h
  | cons plaintext rest ih =>
      cases i with
      | zero => exact ⟨plaintext, rfl, cipher, rfl, Option.some.inj h⟩
      | succ i =>
          obtain ⟨later, hlater, maker, hkey, hmade⟩ := ih h
          exact ⟨later, hlater, maker, by rw [hkey, encrypt_snd], hmade⟩

/-- A call yields a packet when the AEAD seals its plaintext under the nonce that is then
    due. -/
theorem getElem?_encryptAll_of_sealed {aead : Aead} {cipher : SessionCipher}
    {plaintexts : List (List UInt8)} {i : Nat} {plaintext ciphertext : List UInt8}
    (hplaintext : plaintexts[i]? = some plaintext)
    (hseal : aead.encrypt cipher.key (nonceOf (cipher.counter + UInt64.ofNat i)) plaintext =
      some ciphertext) :
    (cipher.encryptAll aead plaintexts).1[i]? =
      some (.ok ((nonceOf (cipher.counter + UInt64.ofNat i)).bytes ++ ciphertext)) := by
  induction plaintexts generalizing cipher i with
  | nil => cases hplaintext
  | cons first rest ih =>
      cases i with
      | zero =>
          obtain rfl := Option.some.inj hplaintext
          rw [show UInt64.ofNat 0 = 0 from rfl, UInt64.add_zero] at hseal ⊢
          exact congrArg some (encrypt_eq_ok.mpr ⟨ciphertext, hseal, rfl⟩)
      | succ i =>
          have hcounter : (cipher.encrypt aead first).2.counter + UInt64.ofNat i =
              cipher.counter + UInt64.ofNat (i + 1) := by
            rw [encrypt_snd, UInt64.ofNat_add, UInt64.add_assoc, UInt64.add_comm 1]
            rfl
          have hkey : (cipher.encrypt aead first).2.key = cipher.key := by rw [encrypt_snd]
          rw [← hcounter] at hseal ⊢
          rw [← hkey] at hseal
          exact ih hplaintext hseal

/-- Wherever the counter of the sender starts, and whatever the counter of the receiver,
    every packet that arrives, in whatever order and with whatever losses, decrypts to
    the plaintext it was made from and is 28 bytes longer. A call yields a packet whenever
    the AEAD seals its plaintext. Whatever is shorter than 28 bytes is rejected. -/
theorem decrypt_any_order (aead : Aead) (key : Octets 32) (start counter : UInt64)
    (plaintexts : List (List UInt8)) (order : List Nat) :
    (∀ arrival ∈ delivered ((new key start).encryptAll aead plaintexts).1 order,
      ∃ plaintext, plaintexts[arrival.1]? = some plaintext ∧
        (new key counter).decrypt aead arrival.2 = .ok plaintext ∧
        arrival.2.length = plaintext.length + 28) ∧
      (∀ (i : Nat) (plaintext ciphertext : List UInt8), plaintexts[i]? = some plaintext →
        aead.encrypt key (nonceOf (start + UInt64.ofNat i)) plaintext = some ciphertext →
        ((new key start).encryptAll aead plaintexts).1[i]? =
          some (.ok ((nonceOf (start + UInt64.ofNat i)).bytes ++ ciphertext))) ∧
      ∀ packet : List UInt8, packet.length < 28 →
        (new key counter).decrypt aead packet = .error .decrypt := by
  refine ⟨?_, ?_, ?_⟩
  · rintro ⟨i, packet⟩ harrival
    obtain ⟨plaintext, hplaintext, maker, hkey, hmade⟩ :=
      getElem?_encryptAll (mem_delivered harrival)
    exact ⟨plaintext, hplaintext, decrypt_of_encrypt hkey.symm hmade, length_of_encrypt hmade⟩
  · intro i plaintext ciphertext hplaintext hseal
    exact @getElem?_encryptAll_of_sealed aead (new key start) _ _ _ _ hplaintext hseal
  · intro packet hshort
    exact decrypt_of_short aead _ hshort

/-- Two packets that overtake each other are both delivered, and decrypted. -/
theorem overtaking_decrypts :
    let outcomes :=
      ((new (Octets.replicate 32 7) 0).encryptAll chacha20Poly1305 [[1, 2, 3], [4]]).1
    (delivered outcomes [1, 0]).map Prod.fst = [1, 0] ∧
      ∀ arrival ∈ delivered outcomes [1, 0], ∃ plaintext,
        [[1, 2, 3], [4]][arrival.1]? = some plaintext ∧
          (new (Octets.replicate 32 7) 9).decrypt chacha20Poly1305 arrival.2 = .ok plaintext ∧
          arrival.2.length = plaintext.length + 28 :=
  ⟨by decide +kernel, (decrypt_any_order chacha20Poly1305 (Octets.replicate 32 7) 0 9
    [[1, 2, 3], [4]] [1, 0]).1⟩

end SessionCipher

end ConnectAlso.Crypto
