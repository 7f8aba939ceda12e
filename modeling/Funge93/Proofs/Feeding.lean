import Funge93.Proofs.Limit
import Funge93.Text.Control

/-!
# Lines as an input

Lines that somebody types can be written one after the other, each with a line feed
behind it, and given to a run without a window. The requests of that run are answered
with the same lines in the same order: bytes that spell a text spell it back, no
character but the line feed has the byte of a line feed in it, and a line without
control characters loses nothing at its end.

How a run goes depends on no other line than those that it has asked for. So as long
as it asks for no more lines than there are, it is all the same whether it is given
the lines themselves or the input that holds them.
-/

namespace Funge93

namespace Text

theorem ofBytes?_toBytes (text : String) : ofBytes? (toBytes text) = some text := by
  have hbytes : (toBytes text).toByteArray = text.toByteArray := by
    conv_rhs => rw [← String.ofList_toList (s := text), String.toByteArray_ofList]
    rfl
  rw [ofBytes?, hbytes, String.fromUTF8?, dif_pos text.isValidUTF8]
  rfl

theorem ten_eq_ofNat_iff {n : Nat} (hn : n < 256) : 10 = UInt8.ofNat n ↔ n = 10 := by
  rw [eq_comm, ← UInt8.toNat_inj, UInt8.toNat_ofNat_of_lt' hn]
  rfl

/-- Only the line feed has its byte. The bytes of a character that has several are all
128 at least. -/
theorem eq_lineFeed_of_mem_encode {c : Char} (h : 10 ∈ String.utf8EncodeChar c) :
    c = '\n' := by
  have hhigh : ∀ n, 128 ≤ n → n < 256 → 10 ≠ UInt8.ofNat n := by
    intro n hlow hn heq
    have hten := (ten_eq_ofNat_iff hn).mp heq
    omega
  simp only [String.utf8EncodeChar] at h
  (repeat' split at h) <;> simp only [List.mem_cons, List.not_mem_nil, or_false] at h
  · rw [ten_eq_ofNat_iff (by omega)] at h
    exact Char.ext (UInt32.toNat_inj.mp h)
  · rcases h with h | h <;> exact absurd h (hhigh _ (by omega) (by omega))
  · rcases h with h | h | h <;> exact absurd h (hhigh _ (by omega) (by omega))
  · rcases h with h | h | h | h <;> exact absurd h (hhigh _ (by omega) (by omega))

theorem not_mem_toBytes {text : String} (h : '\n' ∉ text.toList) :
    10 ∉ toBytes text := by
  intro hmem
  obtain ⟨c, hc, hbyte⟩ := List.mem_flatMap.mp hmem
  rw [eq_lineFeed_of_mem_encode hbyte] at hc
  exact h hc

end Text

namespace Headless

/-- The input that holds some lines. -/
def feed (lines : List String) : List UInt8 :=
  lines.flatMap fun line => Text.toBytes line ++ [10]

/-- A text that may be typed: it has no control characters in it. -/
def Plain (line : String) : Prop :=
  ∀ c ∈ line.toList, Text.isControl c = false

theorem Plain.not_mem_lineFeed {line : String} (h : Plain line) :
    '\n' ∉ line.toList := fun hmem =>
  Bool.noConfusion ((h _ hmem).symm.trans (rfl : Text.isControl '\n' = true))

theorem Plain.lineText? {line : String} (h : Plain line) :
    lineText? (Text.toBytes line) = some line := by
  have hkept : line.toList.rdropWhile (fun c => c == '\r' || c == '\n') = line.toList := by
    rw [List.rdropWhile_eq_self_iff]
    intro hne hlast
    have hcontrol := h _ (List.getLast_mem hne)
    rcases Bool.or_eq_true_iff.mp hlast with hend | hend <;>
      rw [eq_of_beq hend] at hcontrol <;> cases hcontrol
  rw [Headless.lineText?, Text.ofBytes?_toBytes, Option.map_some, hkept,
    String.ofList_toList]

theorem splitOn_feed_cons {line : String} (h : Plain line) (rest : List String) :
    (feed (line :: rest)).splitOn 10 = Text.toBytes line :: (feed rest).splitOn 10 := by
  rw [feed, List.flatMap_cons, List.append_assoc, List.singleton_append]
  exact List.splitOn_append_cons_self_of_not_mem
    (Text.not_mem_toBytes h.not_mem_lineFeed) _

/-- The requests get the lines that were fed, in their order. -/
theorem nthLine?_feed {lines : List String} (h : ∀ line ∈ lines, Plain line) {i : Nat}
    (hi : i < lines.length) : nthLine? (feed lines) i = lines[i]? := by
  induction lines generalizing i with
  | nil => exact absurd hi (Nat.not_lt_zero i)
  | cons line rest ih =>
      have hplain : Plain line := h line List.mem_cons_self
      rw [nthLine?, splitOn_feed_cons hplain]
      cases i with
      | zero => exact hplain.lineText?
      | succ i =>
          exact ih (fun l hl => h l (List.mem_cons_of_mem _ hl))
            (Nat.lt_of_succ_lt_succ hi)

/-! ## What a run depends on -/

theorem settle_of_not_request {due : Option String} {a : Outcome × Session}
    (h : (settle due a).1.isRequest = false) (due' : Option String) :
    settle due' a = settle due a := by
  obtain ⟨outcome, s⟩ := a
  cases outcome with
  | did event => rfl
  | halted => rfl
  | interrupted => rfl
  | awaits input =>
      simp only [settle] at h
      cases due with
      | none => cases h
      | some line =>
          simp only [] at h
          rcases hs : s.supply line with ⟨error | outcome, s'⟩ <;> simp only [hs] at h <;> cases h

namespace Reference

variable {limit : Option Nat} {lines lines' : Nat → Option String} {r : Reference}

theorem requests_le_turn : r.requests ≤ (r.turn limit lines).requests :=
  rounds_prefix_turn.sublist.countP_le

theorem turn_congr (h : ∀ i < (r.turn limit lines).requests, lines i = lines' i) :
    r.turn limit lines' = r.turn limit lines := by
  cases hverdict : r.verdict? with
  | some verdict => rw [turn_of_verdict hverdict, turn_of_verdict hverdict]
  | none =>
      rw [turn_of_live hverdict] at h ⊢
      rw [turn_of_live hverdict, play, play]
      cases hrequest : (play limit (lines r.requests) r.session).1.isRequest with
      | true =>
          rw [h r.requests]
          rw [requests_append, hrequest]
          exact Nat.lt_succ_self _
      | false =>
          rw [play] at hrequest
          rw [settle_of_not_request hrequest]

theorem after_congr {s : Session} {n : Nat}
    (h : ∀ i < (after limit lines s n).requests, lines i = lines' i) :
    after limit lines' s n = after limit lines s n := by
  induction n with
  | zero => rfl
  | succ n ih =>
      rw [after_succ] at h ⊢
      rw [after_succ, ih fun i hi => h i (Nat.lt_of_lt_of_le hi requests_le_turn)]
      exact turn_congr h

/-- The run on a session that is given some lines and no others. -/
def given (lines : List String) (s : Session) (n : Nat) : Reference :=
  after none (fun i => lines[i]?) s n

theorem paced_given (lines : List String) (grid : Grid) (source : Random.Source)
    (n : Nat) : Paced (given lines (Session.start grid source) n) n :=
  Paced.after grid source n

end Reference

/-- A run that is fed some lines, while they last. -/
theorem Mirrors.feed {lines : List String} (hplain : ∀ line ∈ lines, Plain line)
    (grid : Grid) (source : Random.Source) {n : Nat}
    (hlast : (Reference.given lines (Session.start grid source) n).requests ≤
      lines.length) :
    Mirrors (feed lines) none (Drive.fresh grid source (Headless.feed lines) none n)
      (Reference.given lines (Session.start grid source) n) := by
  have hsame : Reference.after none (nthLine? (Headless.feed lines))
      (Session.start grid source) n =
        Reference.given lines (Session.start grid source) n :=
    Reference.after_congr fun i hi =>
      (nthLine?_feed hplain (Nat.lt_of_lt_of_le hi hlast)).symm
  rw [← hsame]
  exact Mirrors.fresh grid source _ none n

end Headless

end Funge93
