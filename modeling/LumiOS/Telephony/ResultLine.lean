import LumiOS.Telephony.Sms

/-!
# Telephony — ResultLine

`modem_send_at` on a reply of information lines and a final result line, which the serial line delivers
in pieces.

The loop looks for `OK` and `ERROR` anywhere in what it has read, and the answer is whether `OK` is in it.
So it reads to the end of the reply, and answers by its result line, exactly when neither text comes with
the pieces before the last, and `OK` is nowhere in a reply that ends with `ERROR`
(`modemSendAt_delivers_iff`).
-/

namespace LumiOS.Telephony

open Support

inductive ResultCode where
  | ok
  | error
deriving DecidableEq, Repr

def ResultCode.text : ResultCode → List UInt8
  | .ok => ascii "OK"
  | .error => ascii "ERROR"

/-- Information lines, and the final result line. -/
structure ResultReply where
  lines : List (List UInt8)
  result : ResultCode
  no_newline : ∀ l ∈ lines, newline ∉ l

def ResultReply.bytes (r : ResultReply) : List UInt8 :=
  r.lines.flatMap (· ++ crlf) ++ r.result.text ++ crlf

/-- A reply in non-empty pieces, one for each round of the loop at most. -/
structure Delivery (r : ResultReply) where
  reads : List (List UInt8)
  flatten_eq : reads.flatten = r.bytes
  ne_nil : ∀ chunk ∈ reads, chunk ≠ []
  length_le : reads.length ≤ 20

/-- `modem_send_at` returns 0 exactly when the result line is `OK`, and `resp` holds the whole reply. -/
def Delivery.Delivers {r : ResultReply} (d : Delivery r) (size : Nat) (modemFd : Int) : Prop :=
  ((modemSendAtInto size modemFd ⟨true, d.reads⟩).1 = 0 ↔ r.result = .ok) ∧
    readInto size 20 [] d.reads = r.bytes

section

variable {r : ResultReply} {s t resp : List UInt8} {reads : List (List UInt8)} {size retries : Nat}

theorem isFinal_iff : isFinal s = true ↔ ascii "OK" <:+: cstring s ∨ ascii "ERROR" <:+: cstring s := by
  simp only [isFinal, decide_eq_true_iff, strstr_isSome]

/-- What was found in a text is found in a longer one. -/
theorem isFinal_append (h : isFinal s = true) (t : List UInt8) : isFinal (s ++ t) = true := by
  have hin : cstring s <:+: cstring (s ++ t) := by
    by_cases h0 : 0 ∈ s
    · rw [cstring_append_of_mem h0]
    · rw [cstring_append h0, cstring_of_not_mem h0]
      exact (List.prefix_append _ _).isInfix
  rw [isFinal_iff] at h ⊢
  exact h.imp (·.trans hin) (·.trans hin)

/-- The loop reads on to the last piece exactly when the pieces before it hold no result. -/
theorem readInto_eq_iff (hne : ∀ chunk ∈ reads, chunk ≠ []) (hle : reads.length ≤ retries)
    (hlen : (resp ++ reads.flatten).length < size) (hresp : isFinal resp = false) :
    readInto size retries resp reads = resp ++ reads.flatten ↔
      isFinal (resp ++ reads.dropLast.flatten) = false := by
  induction retries generalizing resp reads with
  | zero =>
      obtain rfl := List.length_eq_zero_iff.mp (Nat.le_zero.mp hle)
      simp [readInto, hresp]
  | succ retries ih =>
      cases reads with
      | nil => simp [readInto, hresp]
      | cons chunk reads =>
          obtain ⟨hchunk, hne⟩ := List.forall_mem_cons.mp hne
          rw [List.flatten_cons, ← List.append_assoc] at hlen ⊢
          have hpos : 0 < chunk.length := List.length_pos_iff.mpr hchunk
          have hroom : resp.length < size - 1 ∧ chunk.length ≤ size - resp.length - 1 := by
            simp only [List.length_append] at hlen
            omega
          rw [readInto]
          simp only [if_pos hroom.1, List.take_of_length_le hroom.2]
          cases reads with
          | nil =>
              have hlast : readInto size retries (resp ++ chunk) [] = resp ++ chunk := by
                cases retries <;> rfl
              rw [hlast, ite_self]
              simp [hresp]
          | cons next reads =>
              have hsplit : resp ++ (chunk :: next :: reads).dropLast.flatten =
                  resp ++ chunk ++ (next :: reads).dropLast.flatten := by
                rw [List.dropLast_cons_of_ne_nil (List.cons_ne_nil _ _), List.flatten_cons,
                  List.append_assoc]
              rw [hsplit]
              by_cases hfinal : isFinal (resp ++ chunk) = true
              · -- the next piece is not read
                have hnext : next ≠ [] := hne next List.mem_cons_self
                rw [if_pos ⟨hchunk, hfinal⟩, isFinal_append hfinal]
                simp [hnext]
              · rw [if_neg fun h => hfinal h.2]
                exact ih hne (Nat.le_of_succ_le_succ hle) hlen (Bool.eq_false_iff.mpr hfinal)

/-- The answer, once the reply was read to its end. -/
theorem modemSendAtInto_of_read {modemFd : Int} (hfd : 0 ≤ modemFd)
    (hread : readInto size 20 [] reads = r.bytes) :
    (modemSendAtInto size modemFd ⟨true, reads⟩).1 = 0 ↔ ascii "OK" <:+: cstring r.bytes := by
  have hne : r.bytes ≠ [] := by
    simp [ResultReply.bytes, crlf, ascii]
  simp only [modemSendAtInto, if_neg (Int.not_lt.mpr hfd), Bool.true_eq_false, if_false, hread, if_neg hne]
  rw [← strstr_isSome]
  split
  · rename_i h
    exact iff_of_true rfl h
  · rename_i h
    exact iff_of_false (by decide) h

end

/-- **The reply is delivered** exactly when no piece before the last completes an `OK` or `ERROR`, and `OK`
occurs in the reply only if that is its result. -/
theorem modemSendAt_delivers_iff {r : ResultReply} (d : Delivery r) (size : Nat) (modemFd : Int)
    (hfd : 0 ≤ modemFd) (hlen : r.bytes.length < size - 1) :
    d.Delivers size modemFd ↔
      isFinal d.reads.dropLast.flatten = false ∧
        (ascii "OK" <:+: cstring r.bytes ↔ r.result = .ok) := by
  have hread : readInto size 20 [] d.reads = r.bytes ↔ isFinal d.reads.dropLast.flatten = false := by
    have hfits : ([] ++ d.reads.flatten).length < size := by
      rw [List.nil_append, d.flatten_eq]
      omega
    rw [← d.flatten_eq]
    exact readInto_eq_iff d.ne_nil d.length_le hfits (by decide)
  rw [Delivery.Delivers, ← hread, and_comm]
  refine and_congr_right fun h => ?_
  rw [modemSendAtInto_of_read hfd h]

/-- A modem that reports its signal, in two pieces. -/
def signalReply : ResultReply := ⟨[[], ascii "+CSQ: 20,99"], .ok, by decide +kernel⟩

def signalDelivery : Delivery signalReply where
  reads := [ascii "\r\n+CSQ: 2", ascii "0,99\r\nOK\r\n"]
  flatten_eq := by decide +kernel
  ne_nil := by decide +kernel
  length_le := by decide

theorem modemSendAt_delivers_signal : signalDelivery.Delivers 256 3 :=
  (modemSendAt_delivers_iff signalDelivery 256 3 (by decide) (by decide +kernel)).mpr
    ⟨by decide +kernel, by decide +kernel⟩

/-- An operator whose name has an `OK` in it, and a command that failed. -/
def brookeReply : ResultReply := ⟨[ascii "+COPS: 0,0,\"BROOKE\""], .error, by decide +kernel⟩

def brookeDelivery : Delivery brookeReply where
  reads := [brookeReply.bytes]
  flatten_eq := List.append_nil _
  ne_nil := by decide +kernel
  length_le := by decide

/-- The answer is 0. -/
theorem modemSendAt_takes_name :
    ¬ ∀ (r : ResultReply) (d : Delivery r) (size : Nat) (modemFd : Int), 0 ≤ modemFd →
      r.bytes.length < size - 1 → d.Delivers size modemFd := by
  intro h
  have hok := (h brookeReply brookeDelivery 256 3 (by decide) (by decide +kernel)).1
  exact absurd (hok.mp (by decide +kernel)) (by decide)

end LumiOS.Telephony
