import LumiOS.Support.Shift
import LumiOS.Telephony.Calls

/-!
# Telephony — CallArray

The array `calls` and its counter, on which `call_hangup` works in place: it looks for the call from the
front, and moves the calls behind it down.  What is left is the table without the first call that has the
id (`hangup_removes`), as `callHangup` has it (`hangup_refines`).
-/

namespace LumiOS.Telephony

open Support

/-- `calls` and `num_calls`. -/
structure CallArray where
  entries : List Call
  length_eq : entries.length = maxCalls
  numCalls : Nat
  numCalls_le : numCalls ≤ maxCalls

namespace CallArray

/-- The calls there are. -/
def list (a : CallArray) : List Call := a.entries.take a.numCalls

def table (a : CallArray) : CallTable where
  list := a.list
  length_le := (List.length_take_le _ _).trans a.numCalls_le

/-- The loops of `call_hangup`, where they find the call. -/
def remove (a : CallArray) (callId : Int32) : Option CallArray :=
  (a.list.findIdx? fun c => c.callId = callId).map fun i =>
    { entries := shiftDown i (a.numCalls - 1 - i)
        (a.entries.modify i fun c => { c with state := .released })
      length_eq := by rw [shiftDown_length, List.length_modify, a.length_eq]
      numCalls := a.numCalls - 1
      numCalls_le := (Nat.sub_le _ _).trans a.numCalls_le }

end CallArray

/-- `telephonyd_t` with the array of its calls. -/
structure Switchboard extends Telephonyd where
  array : CallArray
  calls_eq : calls = array.table

/-- `call_hangup`. -/
def Switchboard.hangup (t : Switchboard) (callId : Int32) (reply reply' : Reply) : Int × Switchboard :=
  let (_, _, s) := t.toTelephonyd.send (snprintf 32 (ascii "AT+CHLD=1" ++ printInt callId)) reply
  let (_, _, s) := s.send (ascii "ATH") reply'
  match t.array.remove callId with
  | some array => (0, ⟨{ s with calls := array.table }, array, rfl⟩)
  | none => (-1, ⟨{ s with calls := t.array.table }, t.array, rfl⟩)

section

variable {a a' : CallArray} {callId : Int32} {pre post : List Call} {c : Call}

namespace CallArray

theorem length_list (a : CallArray) : a.list.length = a.numCalls := by
  rw [list, List.length_take, a.length_eq]
  exact Nat.min_eq_left a.numCalls_le

theorem remove_eq_none (h : ∀ c ∈ a.list, c.callId ≠ callId) : a.remove callId = none := by
  rw [remove, Option.map_eq_none_iff, List.findIdx?_eq_none_iff]
  simpa using h

/-- The loops take out the first call with the id. -/
theorem remove_append (hlist : a.list = pre ++ c :: post) (hpre : ∀ d ∈ pre, d.callId ≠ callId)
    (hc : c.callId = callId) :
    ∃ a', a.remove callId = some a' ∧ a'.list = pre ++ post ∧ a'.numCalls + 1 = a.numCalls := by
  have hfind : a.list.findIdx? (fun c => decide (c.callId = callId)) = some pre.length := by
    rw [hlist, List.findIdx?_append, List.findIdx?_eq_none_iff.mpr (by simpa using hpre)]
    simp [List.findIdx?_cons, hc]
  have hnum : a.numCalls = pre.length + (post.length + 1) := by
    rw [← length_list, hlist, List.length_append, List.length_cons]
  have hentries : a.entries = pre ++ c :: (post ++ a.entries.drop a.numCalls) := by
    conv_lhs => rw [← List.take_append_drop a.numCalls a.entries]
    rw [show a.entries.take a.numCalls = pre ++ c :: post from hlist, List.append_assoc, List.cons_append]
  have hmodify : a.entries.modify pre.length (fun c => { c with state := .released }) =
      pre ++ { c with state := .released } :: (post ++ a.entries.drop a.numCalls) := by
    conv_lhs => rw [hentries]
    rw [List.modify_eq_take_cons_drop (by simp)]
    simp
  obtain ⟨z, hz⟩ := shiftDown_append pre post (a.entries.drop a.numCalls) { c with state := .released }
  have hcount : a.numCalls - 1 - pre.length = post.length := by omega
  refine ⟨_, by rw [remove, hfind, Option.map_some], ?_, ?_⟩
  · show (shiftDown pre.length (a.numCalls - 1 - pre.length) (a.entries.modify pre.length _)).take
      (a.numCalls - 1) = pre ++ post
    rw [hcount, hmodify, hz]
    refine List.take_left' ?_
    rw [List.length_append]
    omega
  · show a.numCalls - 1 + 1 = a.numCalls
    omega

end CallArray

/-- The array does what is done to the table. -/
theorem update_table (a : CallArray) (callId : Int32) :
    a.table.update callId (fun _ => none) = (a.remove callId).map CallArray.table := by
  rcases CallTable.first_or callId a.list with h | ⟨pre, c, post, hlist, hpre, hc⟩
  · rw [a.remove_eq_none h, CallTable.update_eq_none h]
    rfl
  · obtain ⟨a', hremove, hlist', -⟩ := CallArray.remove_append hlist hpre hc
    obtain ⟨table, hupdate, htable⟩ : ∃ table, a.table.update callId (fun _ => none) = some table ∧
        table.list = pre ++ [] ++ post := CallTable.update_append hlist hpre hc
    rw [hremove, hupdate, Option.map_some]
    congr 1
    have heq : table.list = a'.list := by
      rw [htable, hlist']
      simp
    cases table
    cases heq
    rfl

/-- `callHangup` is `call_hangup`, seen by the table alone. -/
theorem hangup_refines (t : Switchboard) (callId : Int32) (reply reply' : Reply) :
    callHangup t.toTelephonyd callId reply reply' =
      ((t.hangup callId reply reply').1, (t.hangup callId reply reply').2.toTelephonyd) := by
  have hupdate := update_table t.array callId
  rw [← t.calls_eq] at hupdate
  simp only [callHangup, Switchboard.hangup, Telephonyd.send, hupdate]
  cases t.array.remove callId with
  | none => simp [t.calls_eq]
  | some a' => rfl

end

/-- **`call_hangup` takes out the first call with the id,** and nothing else: the calls before it and behind
it are left, in their order.  Without such a call nothing changes. -/
theorem hangup_removes (t : Switchboard) (callId : Int32) (reply reply' : Reply) :
    (∀ pre c post, t.array.list = pre ++ c :: post → (∀ d ∈ pre, d.callId ≠ callId) →
      c.callId = callId →
        (t.hangup callId reply reply').1 = 0 ∧
        (t.hangup callId reply reply').2.array.list = pre ++ post ∧
        (t.hangup callId reply reply').2.array.numCalls + 1 = t.array.numCalls) ∧
    ((∀ c ∈ t.array.list, c.callId ≠ callId) →
      (t.hangup callId reply reply').1 = -1 ∧ (t.hangup callId reply reply').2.array = t.array) := by
  constructor
  · intro pre c post hlist hpre hc
    obtain ⟨a', hremove, hlist', hnum⟩ := CallArray.remove_append hlist hpre hc
    simp only [Switchboard.hangup, hremove]
    exact ⟨trivial, hlist', hnum⟩
  · intro h
    simp only [Switchboard.hangup, t.array.remove_eq_none h]
    exact ⟨trivial, trivial⟩

end LumiOS.Telephony
