import ConnectAlso.Net.Address

/-!
# Sockets and the effects of a call

The data plane only sends: a call hands datagrams to `UdpSocket::send_to` and
then returns, returns an error or panics. `Effect` records both. What the
operating system answers to a `send_to` is not determined by the code and is a
parameter (`Network`); a datagram counts as sent when it was handed to the
socket, whatever the answer.
-/

namespace ConnectAlso

/-- A UDP datagram as it is handed to `UdpSocket::send_to`. -/
structure Datagram where
  src : SocketAddr
  dst : SocketAddr
  payload : List UInt8
  deriving DecidableEq, Repr

/-- `std::io::Error`, by the kinds that the code itself creates. -/
inductive IoError where
  | timedOut
  | connectionRefused
  | other (code : Int)
  deriving DecidableEq, Repr

/-- The ways a call can fail: it returns `Err`, or it panics. -/
inductive Fault (ε : Type) where
  | err (error : ε)
  | panic (message : String)
  deriving DecidableEq, Repr

/-- The datagrams a call sends, in order, and how the call ends. -/
structure Effect (ε α : Type) where
  sent : List Datagram
  outcome : Except (Fault ε) α

/-- What the operating system answers to `send_to`. -/
abbrev Network := Datagram → Except IoError Nat

/-- A network that takes every datagram. -/
def Network.ideal : Network := fun datagram => .ok datagram.payload.length

namespace Effect

variable {ε ε' α β : Type}

instance : Monad (Effect ε) where
  pure a := ⟨[], .ok a⟩
  bind m f :=
    match m.outcome with
    | .ok a => ⟨m.sent ++ (f a).sent, (f a).outcome⟩
    | .error fault => ⟨m.sent, .error fault⟩

/-- Return `Err`. -/
def fail (error : ε) : Effect ε α := ⟨[], .error (.err error)⟩

/-- `Result::expect`: the value, or a panic. -/
def expect (result : Except ε' α) (message : String) : Effect ε α :=
  match result with
  | .ok a => ⟨[], .ok a⟩
  | .error _ => ⟨[], .error (.panic message)⟩

/-- The `?` operator on a value that was computed without sending. -/
def ofExcept (result : Except ε α) : Effect ε α := ⟨[], result.mapError .err⟩

/-- `UdpSocket::send_to`. -/
def sendTo (net : Network) (datagram : Datagram) : Effect IoError Nat :=
  ⟨[datagram], (net datagram).mapError .err⟩

/-- `Result::map_err`. -/
def mapErr (f : ε → ε') (m : Effect ε α) : Effect ε' α :=
  ⟨m.sent, m.outcome.mapError fun
    | .err error => .err (f error)
    | .panic message => .panic message⟩

/-- `let _ = …`: an `Err` is ignored, a panic is not. -/
def discard (m : Effect ε α) : Effect ε' Unit :=
  ⟨m.sent, match m.outcome with
    | .error (.panic message) => .error (.panic message)
    | .error (.err _) => .ok ()
    | .ok _ => .ok ()⟩

@[simp] theorem sent_pure (a : α) : (pure a : Effect ε α).sent = [] := rfl

@[simp] theorem outcome_pure (a : α) : (pure a : Effect ε α).outcome = .ok a := rfl

theorem bind_ok {m : Effect ε α} {a : α} (h : m.outcome = .ok a) (f : α → Effect ε β) :
    (m >>= f) = ⟨m.sent ++ (f a).sent, (f a).outcome⟩ := by
  simp only [bind, h]

theorem bind_error {m : Effect ε α} {fault : Fault ε} (h : m.outcome = .error fault)
    (f : α → Effect ε β) : (m >>= f) = ⟨m.sent, .error fault⟩ := by
  simp only [bind, h]

/-- A sequence that returns a value has come through its first part. -/
theorem of_bind_ok {m : Effect ε α} {f : α → Effect ε β} {b : β}
    (h : (m >>= f).outcome = .ok b) : ∃ a, m.outcome = .ok a ∧ (f a).outcome = .ok b := by
  cases hm : m.outcome with
  | ok a =>
      rw [bind_ok hm] at h
      exact ⟨a, rfl, h⟩
  | error fault =>
      rw [bind_error hm] at h
      cases h

/-- A sequence returns a value when both of its parts do. -/
theorem bind_eq_ok_iff {m : Effect ε α} {f : α → Effect ε β} {b : β} :
    (m >>= f).outcome = .ok b ↔ ∃ a, m.outcome = .ok a ∧ (f a).outcome = .ok b := by
  refine ⟨of_bind_ok, ?_⟩
  rintro ⟨a, hm, hf⟩
  rw [bind_ok hm]
  exact hf

@[simp] theorem ofExcept_eq_ok_iff {result : Except ε α} {a : α} :
    (ofExcept result).outcome = .ok a ↔ result = .ok a := by
  cases result <;> simp [ofExcept, Except.mapError]

@[simp] theorem mapErr_eq_ok_iff {f : ε → ε'} {m : Effect ε α} {a : α} :
    (m.mapErr f).outcome = .ok a ↔ m.outcome = .ok a := by
  cases hm : m.outcome <;> simp [mapErr, hm, Except.mapError]

@[simp] theorem sendTo_eq_ok_iff {net : Network} {datagram : Datagram} {n : Nat} :
    (sendTo net datagram).outcome = .ok n ↔ net datagram = .ok n := by
  cases hnet : net datagram <;> simp [sendTo, hnet, Except.mapError]

/-- What follows a call sends after it, or not at all. -/
theorem sent_bind_of_silent (m : Effect ε α) {f : α → Effect ε β} (hf : ∀ a, (f a).sent = []) :
    (m >>= f).sent = m.sent := by
  cases h : m.outcome with
  | ok a => rw [bind_ok h, hf a, List.append_nil]
  | error fault => rw [bind_error h]

@[simp] theorem sent_mapErr (f : ε → ε') (m : Effect ε α) : (m.mapErr f).sent = m.sent := rfl

@[simp] theorem sent_discard (m : Effect ε α) : (m.discard : Effect ε' Unit).sent = m.sent := rfl

@[simp] theorem sent_fail (error : ε) : (fail error : Effect ε α).sent = [] := rfl

@[simp] theorem sent_sendTo (net : Network) (datagram : Datagram) :
    (sendTo net datagram).sent = [datagram] := rfl

@[simp] theorem ofExcept_ok_bind (a : α) (f : α → Effect ε β) :
    (ofExcept (.ok a) >>= f) = f a := rfl

@[simp] theorem ofExcept_error_bind (error : ε) (f : α → Effect ε β) :
    (ofExcept (.error error) >>= f) = ⟨[], .error (.err error)⟩ := rfl

/-- A call that starts with an `expect` that holds goes on with the value. -/
@[simp] theorem expect_ok_bind (a : α) (message : String) (f : α → Effect ε β) :
    ((expect (.ok a : Except ε' α) message : Effect ε α) >>= f) = f a := rfl

@[simp] theorem expect_error_bind (error : ε') (message : String) (f : α → Effect ε β) :
    ((expect (.error error : Except ε' α) message : Effect ε α) >>= f) =
      ⟨[], .error (.panic message)⟩ := rfl

end Effect

end ConnectAlso
