import ConnectAlso.Misc.Bytes

/-!
# Authenticated encryption

`Aead` is an authenticated cipher with 32-byte keys, 12-byte nonces, 16-byte tags
and no associated data, given by its two functions and the two laws that callers
rely on. `chacha20Poly1305` is the cipher that the crate `chacha20poly1305`
implements, written out on byte lists.
-/

namespace ConnectAlso.Misc

/-- A byte string of a fixed length. -/
@[ext] structure Octets (n : Nat) where
  bytes : List UInt8
  length_bytes : bytes.length = n
  deriving DecidableEq, Repr

attribute [simp] Octets.length_bytes

/-- One byte, repeated. -/
def Octets.replicate (n : Nat) (b : UInt8) : Octets n where
  bytes := List.replicate n b
  length_bytes := List.length_replicate

/-- An AEAD with an empty associated-data string. Both functions may refuse: the
    encryption an input that is too long, the decryption an input that was not
    produced under the key and nonce. -/
structure Aead where
  encrypt : Octets 32 → Octets 12 → List UInt8 → Option (List UInt8)
  decrypt : Octets 32 → Octets 12 → List UInt8 → Option (List UInt8)
  encrypt_length : ∀ {key nonce plaintext ciphertext},
    encrypt key nonce plaintext = some ciphertext → ciphertext.length = plaintext.length + 16
  decrypt_encrypt : ∀ {key nonce plaintext ciphertext},
    encrypt key nonce plaintext = some ciphertext → decrypt key nonce ciphertext = some plaintext

/-! ## ChaCha20 -/

/-- The ChaCha quarter round on four words of the state. -/
def quarterRound (state : List UInt32) (i j k l : Nat) : List UInt32 :=
  let rotate (word : UInt32) (bits : UInt32) : UInt32 := word <<< bits ||| word >>> (32 - bits)
  let a := state.getD i 0 + state.getD j 0
  let d := rotate (state.getD l 0 ^^^ a) 16
  let c := state.getD k 0 + d
  let b := rotate (state.getD j 0 ^^^ c) 12
  let a := a + b
  let d := rotate (d ^^^ a) 8
  let c := c + d
  let b := rotate (b ^^^ c) 7
  (((state.set i a).set j b).set k c).set l d

/-- A column round followed by a diagonal round. -/
def doubleRound (state : List UInt32) : List UInt32 :=
  let state := quarterRound state 0 4 8 12
  let state := quarterRound state 1 5 9 13
  let state := quarterRound state 2 6 10 14
  let state := quarterRound state 3 7 11 15
  let state := quarterRound state 0 5 10 15
  let state := quarterRound state 1 6 11 12
  let state := quarterRound state 2 7 8 13
  quarterRound state 3 4 9 14

/-- `count` little-endian words. -/
def leWords : Nat → List UInt8 → List UInt32
  | 0, _ => []
  | count + 1, bytes => UInt32.ofNat (ofLeBytes (bytes.take 4)) :: leWords count (bytes.drop 4)

/-- Block `counter` of the key stream: the sixteen words of the state after ten
    double rounds, each added to the word it started as. -/
def chacha20Block (key : Octets 32) (nonce : Octets 12) (counter : Nat) : List UInt8 :=
  let start : List UInt32 := [0x61707865, 0x3320646e, 0x79622d32, 0x6b206574] ++
    leWords 8 key.bytes ++ [UInt32.ofNat counter] ++ leWords 3 nonce.bytes
  let mixed := (List.range 10).foldl (fun state _ => doubleRound state) start
  (List.range 16).flatMap fun i => leBytes 4 (start.getD i 0 + mixed.getD i 0).toNat

/-- The key stream from block 1 on; block 0 makes the one-time authenticator key. -/
def chacha20Stream (key : Octets 32) (nonce : Octets 12) (length : Nat) : List UInt8 :=
  (List.range ((length + 63) / 64)).flatMap fun i => chacha20Block key nonce (i + 1)

/-- XOR with the key stream. -/
def chacha20 (key : Octets 32) (nonce : Octets 12) (text : List UInt8) : List UInt8 :=
  List.zipWith (· ^^^ ·) text (chacha20Stream key nonce text.length)

@[simp] theorem chacha20Block_length (key : Octets 32) (nonce : Octets 12) (counter : Nat) :
    (chacha20Block key nonce counter).length = 64 := by
  rw [chacha20Block, List.length_flatMap, List.map_congr_left (fun i _ => leBytes_length 4 _)]
  rfl

theorem le_chacha20Stream_length (key : Octets 32) (nonce : Octets 12) (length : Nat) :
    length ≤ (chacha20Stream key nonce length).length := by
  have hlength : (chacha20Stream key nonce length).length = (length + 63) / 64 * 64 := by
    simp only [chacha20Stream, List.length_flatMap, chacha20Block_length, List.map_const',
      List.sum_replicate_nat, List.length_range]
  omega

@[simp] theorem chacha20_length (key : Octets 32) (nonce : Octets 12) (text : List UInt8) :
    (chacha20 key nonce text).length = text.length := by
  have hstream := le_chacha20Stream_length key nonce text.length
  rw [chacha20, List.length_zipWith]
  omega

/-- XOR with the key stream undoes itself. -/
@[simp] theorem chacha20_chacha20 (key : Octets 32) (nonce : Octets 12) (text : List UInt8) :
    chacha20 key nonce (chacha20 key nonce text) = text := by
  have hstream := le_chacha20Stream_length key nonce text.length
  conv_lhs => rw [chacha20, chacha20_length, chacha20]
  exact zipWith_xor_twice text _ hstream

/-! ## Poly1305 -/

/-- The 16-byte blocks of a message, the last one possibly shorter. `fuel` is at
    least the length of the message. -/
def blocks16 : Nat → List UInt8 → List (List UInt8)
  | 0, _ => []
  | _ + 1, [] => []
  | fuel + 1, message => message.take 16 :: blocks16 fuel (message.drop 16)

/-- The one-time authenticator under a 32-byte key `r ‖ s`. -/
def poly1305 (oneTimeKey message : List UInt8) : List UInt8 :=
  let r := ofLeBytes (oneTimeKey.take 16) &&& 0x0ffffffc0ffffffc0ffffffc0fffffff
  let s := ofLeBytes (oneTimeKey.drop 16)
  let accumulator := (blocks16 message.length message).foldl
    (fun accumulator block => (accumulator + ofLeBytes (block ++ [1])) * r % (2 ^ 130 - 5)) 0
  leBytes 16 (accumulator + s)

/-- The tag of a ciphertext: the authenticator, under the first half of key-stream
    block 0, of the padded ciphertext and the lengths of the (empty) associated
    data and of the ciphertext. -/
def authTag (key : Octets 32) (nonce : Octets 12) (ciphertext : List UInt8) : List UInt8 :=
  let padding := List.replicate ((16 - ciphertext.length % 16) % 16) (0 : UInt8)
  poly1305 ((chacha20Block key nonce 0).take 32)
    (ciphertext ++ padding ++ leBytes 8 0 ++ leBytes 8 ciphertext.length)

@[simp] theorem authTag_length (key : Octets 32) (nonce : Octets 12) (ciphertext : List UInt8) :
    (authTag key nonce ciphertext).length = 16 :=
  leBytes_length 16 _

/-! ## The combination -/

/-- The block counter is a 32-bit word, which bounds the text of one nonce. -/
def maxBlocks : Nat := 2 ^ 32 - 1

/-- The encrypted text followed by its tag. -/
def chacha20Poly1305Encrypt (key : Octets 32) (nonce : Octets 12) (plaintext : List UInt8) :
    Option (List UInt8) :=
  if maxBlocks ≤ plaintext.length / 64 then none
  else
    let ciphertext := chacha20 key nonce plaintext
    some (ciphertext ++ authTag key nonce ciphertext)

/-- The text, if the last 16 bytes are the tag of what precedes them. -/
def chacha20Poly1305Decrypt (key : Octets 32) (nonce : Octets 12) (packet : List UInt8) :
    Option (List UInt8) :=
  if packet.length < 16 then none
  else
    let ciphertext := packet.take (packet.length - 16)
    if maxBlocks ≤ ciphertext.length / 64 then none
    else if packet.drop (packet.length - 16) = authTag key nonce ciphertext then
      some (chacha20 key nonce ciphertext)
    else none

/-- ChaCha20-Poly1305. -/
def chacha20Poly1305 : Aead where
  encrypt := chacha20Poly1305Encrypt
  decrypt := chacha20Poly1305Decrypt
  encrypt_length := by
    intro key nonce plaintext ciphertext h
    unfold chacha20Poly1305Encrypt at h
    split at h
    · cases h
    · obtain rfl := Option.some.inj h
      simp
  decrypt_encrypt := by
    intro key nonce plaintext ciphertext h
    unfold chacha20Poly1305Encrypt at h
    split at h
    · cases h
    · rename_i hshort
      obtain rfl := Option.some.inj h
      have htext : ∀ tag : List UInt8, (chacha20 key nonce plaintext ++ tag).take plaintext.length =
          chacha20 key nonce plaintext := fun tag => List.take_left' (by simp)
      have htag : ∀ tag : List UInt8, (chacha20 key nonce plaintext ++ tag).drop plaintext.length =
          tag := fun tag => List.drop_left' (by simp)
      simp only [chacha20Poly1305Decrypt, List.length_append, authTag_length, chacha20_length,
        Nat.add_sub_cancel, htext, htag, if_true, chacha20_chacha20]
      rw [if_neg (by omega), if_neg hshort]

end ConnectAlso.Misc
