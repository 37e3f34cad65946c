import LumiOS.Telephony.Daemon

/-!
# Telephony — CommandLine

The lines that carry an argument of a caller to the modem: a number to dial, a PIN, the name of an access
point.

The text is formatted into an array of 64 or 128 bytes, and what it consists of is not looked at.  The
modem gets one whole line exactly when the argument leaves room for what closes it and has no CR
(`sound_iff`).
-/

namespace LumiOS.Telephony

open Support

/-! ### sim.c -/

inductive SimState where
  | absent
  | notReady
  | pinRequired
  | pukRequired
  | ready
  | error
deriving DecidableEq, Repr

/-- `telephonyd_t`, with the states of its two SIM slots. -/
structure Phone extends Telephonyd where
  sim : Fin 2 → SimState

/-- `sim[slot]`, where there is one. -/
def simSlot (slot : Int32) : Option (Fin 2) :=
  if slot = 0 then some 0 else if slot = 1 then some 1 else none

def simEnterPin (t : Phone) (slot : Int32) (pin : List UInt8) (reply : Reply) : Int × Phone :=
  match simSlot slot with
  | none => (-1, t)
  | some i =>
    if t.sim i ≠ .pinRequired then (-1, t)
    else
      let (ret, _, t') := t.send (snprintf 64 (ascii "AT+CPIN=\"" ++ cstring pin ++ ascii "\"")) reply
      if ret < 0 then (-1, { t with toTelephonyd := t' })
      else (0, { t with toTelephonyd := t', sim := Function.update t.sim i .ready })

/-! ### The bytes that are written -/

/-- What `modem_send_at` gives to `write` for a command.  The commands here fit its array. -/
def commandBytes (cmd : List UInt8) : List UInt8 := snprintf 512 (cmd ++ [13])

/-- The lines given to `write` between two states, in order.  Whether `write` takes a line is not asked
here. -/
def Telephonyd.linesSince (t t' : Telephonyd) : List (List UInt8) :=
  if t.modemFd < 0 then []
  else ((t'.sent.take (t'.sent.length - t.sent.length)).reverse.map fun e => commandBytes e.1)

/-- The functions that send an argument. -/
inductive ArgOp where
  | originate
  | enterPin (slot : Int32)
  | connect
deriving DecidableEq, Repr

/-- What stands before the argument. -/
def ArgOp.head : ArgOp → List UInt8
  | .originate => ascii "ATD"
  | .enterPin _ => ascii "AT+CPIN=\""
  | .connect => ascii "AT+CGDCONT=1,\"IP\",\""

/-- What closes it. -/
def ArgOp.close : ArgOp → List UInt8
  | .originate => ascii ";"
  | .enterPin _ => ascii "\""
  | .connect => ascii "\""

/-- `sizeof(cmd)`. -/
def ArgOp.bufSize : ArgOp → Nat
  | .originate => 64
  | .enterPin _ => 64
  | .connect => 128

def ArgOp.run (op : ArgOp) (t : Phone) (arg : List UInt8) (reply₁ reply₂ reply₃ : Reply) : Phone :=
  match op with
  | .originate => { t with toTelephonyd := (callOriginate t.toTelephonyd (some arg) reply₁).2 }
  | .enterPin slot => (simEnterPin t slot arg reply₁).2
  | .connect => { t with toTelephonyd := (dataConnect t.toTelephonyd arg reply₁ reply₂ reply₃).2 }

/-- The line that carries the argument, if it is written: the first that is given to `write`, and `write`
takes it. -/
def ArgOp.line (op : ArgOp) (t : Phone) (arg : List UInt8) (reply₁ reply₂ reply₃ : Reply) :
    Option (List UInt8) :=
  if reply₁.written then (t.linesSince (op.run t arg reply₁ reply₂ reply₃).toTelephonyd).head? else none

/-- One line: the command, with the whole argument and what closes it, and a CR, which is the only
one. -/
def ArgOp.Whole (op : ArgOp) (arg line : List UInt8) : Prop :=
  line = op.head ++ cstring arg ++ op.close ++ [13] ∧ 13 ∉ op.head ++ cstring arg ++ op.close

/-- If the argument is written, it is written in one whole line. -/
def ArgOp.Sound (op : ArgOp) (t : Phone) (arg : List UInt8) (reply₁ reply₂ reply₃ : Reply) : Prop :=
  ∀ line, op.line t arg reply₁ reply₂ reply₃ = some line → op.Whole arg line

/-- The function gets as far as sending the argument. -/
def ArgOp.Sends (op : ArgOp) (t : Phone) (arg : List UInt8) : Prop :=
  match op with
  | .originate => cstring arg ≠ [] ∧ t.airplaneMode = false
  | .enterPin slot => ∃ i, simSlot slot = some i ∧ t.sim i = .pinRequired
  | .connect => t.airplaneMode = false ∧ t.data.active = false

/-- The command, as the array holds it. -/
def ArgOp.cmd (op : ArgOp) (arg : List UInt8) : List UInt8 :=
  snprintf op.bufSize (op.head ++ cstring arg ++ op.close)

/-- The longest argument the array has room for. -/
def ArgOp.room : ArgOp → Nat
  | .originate => 59
  | .enterPin _ => 53
  | .connect => 107

section

variable {op : ArgOp} {t t' : Telephonyd} {phone : Phone} {arg cmd : List UInt8}
  {reply₁ reply₂ reply₃ : Reply}

/-! ### One line at a time -/

theorem linesSince_self (t : Telephonyd) : t.linesSince t = [] := by
  simp [Telephonyd.linesSince]

/-- Commands sent since: the first comes first. -/
theorem head?_linesSince {ret : Int} {later : List (List UInt8 × Int)} (hfd : 0 ≤ t.modemFd)
    (hs : t'.sent = later ++ (cmd, ret) :: t.sent) :
    (t.linesSince t').head? = some (commandBytes cmd) := by
  have hlen : t'.sent.length - t.sent.length = (later ++ [(cmd, ret)]).length := by
    rw [hs, List.length_append, List.length_append, List.length_cons, List.length_singleton]
    omega
  have hsplit : t'.sent = (later ++ [(cmd, ret)]) ++ t.sent := by
    rw [hs, List.append_assoc, List.singleton_append]
  rw [Telephonyd.linesSince, if_neg (Int.not_lt.mpr hfd), hlen]
  conv_lhs => rw [hsplit, List.take_left]
  simp

/-- Otherwise nothing is done. -/
theorem run_of_not_sends (h : ¬ op.Sends phone arg) :
    op.run phone arg reply₁ reply₂ reply₃ = phone := by
  cases op with
  | originate =>
      simp only [ArgOp.run, callOriginate]
      split
      · rfl
      · rename_i hne
        have hair : phone.airplaneMode = true := by
          by_contra ha
          exact h ⟨hne, Bool.eq_false_iff.mpr ha⟩
        rw [if_pos hair]
  | enterPin slot =>
      simp only [ArgOp.run, simEnterPin]
      split
      · rfl
      · rename_i i hi
        rw [if_pos fun hs => h ⟨i, hi, hs⟩]
  | connect =>
      simp only [ArgOp.run, dataConnect]
      split
      · rfl
      · rename_i hair
        have hact : phone.data.active = true := by
          by_contra ha
          exact h ⟨Bool.eq_false_iff.mpr hair, Bool.eq_false_iff.mpr ha⟩
        rw [if_pos hact]

/-- The command with the argument is sent before any other. -/
theorem run_sent (h : op.Sends phone arg) (reply₁ reply₂ reply₃ : Reply) : ∃ later ret,
    (op.run phone arg reply₁ reply₂ reply₃).sent = later ++ (op.cmd arg, ret) :: phone.sent := by
  cases op with
  | originate =>
      simp only [ArgOp.run, callOriginate, if_neg h.1, h.2, Bool.false_eq_true, if_false]
      split
      · exact ⟨[], _, rfl⟩
      · exact ⟨[], _, rfl⟩
  | enterPin slot =>
      obtain ⟨i, hi, hs⟩ := h
      simp only [ArgOp.run, simEnterPin, hi, hs, ne_eq, not_true, if_false]
      split
      · exact ⟨[], _, rfl⟩
      · exact ⟨[], _, rfl⟩
  | connect =>
      simp only [ArgOp.run, dataConnect, h.1, h.2, Bool.false_eq_true, if_false]
      split
      · exact ⟨[], _, rfl⟩
      · split
        · exact ⟨[_], _, rfl⟩
        · exact ⟨[_, _], _, rfl⟩

theorem line_eq (op : ArgOp) (phone : Phone) (arg : List UInt8) (reply₁ reply₂ reply₃ : Reply)
    (hfd : 0 ≤ phone.modemFd) (h : op.Sends phone arg) (hw : reply₁.written = true) :
    op.line phone arg reply₁ reply₂ reply₃ = some (commandBytes (op.cmd arg)) := by
  obtain ⟨later, ret, hs⟩ := run_sent h reply₁ reply₂ reply₃
  rw [ArgOp.line, if_pos hw]
  exact head?_linesSince hfd hs

/-- Without a modem, with nothing to do or with a `write` that fails, nothing is written. -/
theorem line_eq_none (h : ¬ (0 ≤ phone.modemFd ∧ op.Sends phone arg ∧ reply₁.written = true)) :
    op.line phone arg reply₁ reply₂ reply₃ = none := by
  by_cases hw : reply₁.written = true
  · rw [ArgOp.line, if_pos hw, List.head?_eq_none_iff]
    by_cases hfd : 0 ≤ phone.modemFd
    · rw [run_of_not_sends fun hsends => h ⟨hfd, hsends, hw⟩]
      exact linesSince_self _
    · exact if_pos (Int.not_le.mp hfd)
  · rw [ArgOp.line, if_neg hw]

/-! ### Whole lines -/

theorem bufSize_eq (op : ArgOp) : op.bufSize = op.head.length + op.room + op.close.length + 1 := by
  cases op <;> rfl

theorem bufSize_le (op : ArgOp) : op.bufSize ≤ 128 := by
  cases op with
  | originate | connect => decide
  | enterPin slot => exact (by decide : 64 ≤ 128)

theorem no_cr (op : ArgOp) : 13 ∉ op.head ∧ 13 ∉ op.close := by
  cases op with
  | originate | connect => decide
  | enterPin slot => exact (by decide : 13 ∉ ascii "AT+CPIN=\"" ∧ 13 ∉ ascii "\"")

/-- The commands fit the array of `modem_send_at`. -/
theorem commandBytes_cmd (op : ArgOp) (arg : List UInt8) :
    commandBytes (op.cmd arg) = op.cmd arg ++ [13] := by
  have hcmd : (op.cmd arg).length ≤ op.bufSize - 1 := List.length_take_le _ _
  have hsize := bufSize_le op
  refine snprintf_eq ?_
  rw [List.length_append, List.length_singleton]
  omega

/-- **A whole line**: the argument fits, and has no CR. -/
theorem whole_iff (op : ArgOp) (arg : List UInt8) :
    op.Whole arg (commandBytes (op.cmd arg)) ↔ (cstring arg).length ≤ op.room ∧ 13 ∉ cstring arg := by
  have hcr : 13 ∉ op.head ++ cstring arg ++ op.close ↔ 13 ∉ cstring arg := by
    simp [(no_cr op).1, (no_cr op).2]
  have hlen : (op.head ++ cstring arg ++ op.close).length =
      op.head.length + (cstring arg).length + op.close.length := by
    rw [List.length_append, List.length_append]
  have hfits : op.cmd arg = op.head ++ cstring arg ++ op.close ↔ (cstring arg).length ≤ op.room := by
    rw [ArgOp.cmd, snprintf, List.take_eq_self_iff, hlen, bufSize_eq]
    omega
  rw [ArgOp.Whole, commandBytes_cmd, List.append_left_inj, hfits, hcr]

/-- **The argument arrives whole, in a single command,** exactly when it has at most 59 bytes for a number,
53 for a PIN and 107 for an access point, and no CR, or is not written at all. -/
theorem sound_iff (op : ArgOp) (phone : Phone) (arg : List UInt8) (reply₁ reply₂ reply₃ : Reply) :
    op.Sound phone arg reply₁ reply₂ reply₃ ↔
      (0 ≤ phone.modemFd ∧ op.Sends phone arg ∧ reply₁.written = true →
        (cstring arg).length ≤ op.room ∧ 13 ∉ cstring arg) := by
  by_cases h : 0 ≤ phone.modemFd ∧ op.Sends phone arg ∧ reply₁.written = true
  · obtain ⟨hfd, hsends, hw⟩ := h
    rw [ArgOp.Sound, line_eq op phone arg reply₁ reply₂ reply₃ hfd hsends hw]
    simp only [Option.some.injEq, forall_eq', whole_iff, hfd, hsends, hw, and_self, true_imp_iff]
  · refine iff_of_true (fun line hl => ?_) fun hwritten => absurd hwritten h
    rw [line_eq_none h] at hl
    cases hl

end

/-- A telephone with a modem, and a SIM that waits for its PIN. -/
def openPhone : Phone where
  modemFd := 3
  signalTech := .lte
  regState := .home
  calls := .empty
  data := ⟨false, .cut CStr.pos_64 [], .cut CStr.pos_16 [], .unknown, 0, 0⟩
  airplaneMode := false
  sent := []
  sim := fun _ => .pinRequired

/-- A number of 60 digits loses its `;`. -/
theorem longNumber_cut :
    ¬ ∀ (op : ArgOp) (phone : Phone) (arg : List UInt8) (reply₁ reply₂ reply₃ : Reply),
      op.Sound phone arg reply₁ reply₂ reply₃ := by
  intro h
  let reply : Reply := ⟨true, [ascii "OK"]⟩
  have hline : ArgOp.originate.line openPhone (List.replicate 60 49) reply reply reply =
      some (ascii "ATD" ++ List.replicate 60 49 ++ [13]) := by decide +kernel
  have hwhole := (h .originate openPhone (List.replicate 60 49) reply reply reply _ hline).1
  exact absurd (congrArg List.length hwhole) (by decide)

end LumiOS.Telephony
