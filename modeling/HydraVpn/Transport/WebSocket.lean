import HydraVpn.Bytes

/-!
# The WebSocket transport's reader (`WebSocketConnection.Read`)

`Read` returns what is left in `readBuf` first; only with `readBuf` empty does it ask
`ReadMessage` for the next binary message, copy as much of it as the caller's buffer holds and
keep the rest in `readBuf`. The underlying connection is the sequence of messages `ReadMessage`
returns, then the error it returns after them.

* `read_cases`: the three things one `Read` can do.
* `readAll_conserves`: the bytes returned, then `readBuf`, then the messages not yet read, are
  the bytes the reader started from.
* `BufInv`, `bufInv_readAll`: `readBuf` is always the rest of the last message read.
* `readAll_of_large_buffers`: with buffers as long as every message, each `Read` returns one whole
  message.
* `webSocket_read_buffering`: nothing is lost, duplicated or merged.
-/

namespace Hydra

/-- The reading side of a `WebSocketConnection`: its `readBuf`, the binary messages the underlying
`ReadMessage` has still to return, in order, and the error it returns after them. -/
structure WebSocketConnection where
  readBuf : Bytes
  messages : List Bytes
  readErr : String
  deriving DecidableEq, Repr

namespace WebSocketConnection

/-- `Read(b)` with `len(b) = bufLen`: the bytes copied into `b` or the error, and the connection
after. -/
def read (c : WebSocketConnection) (bufLen : Nat) : Except String Bytes × WebSocketConnection :=
  if c.readBuf.length > 0 then
    let n := min bufLen c.readBuf.length
    (.ok (c.readBuf.take n), { c with readBuf := c.readBuf.drop n })
  else
    match c.messages with
    | [] => (.error c.readErr, c)
    | data :: rest =>
      let n := min bufLen data.length
      (.ok (data.take n),
        { c with readBuf := if n < data.length then data.drop n else c.readBuf, messages := rest })

/-- Successive `Read` calls with the given buffer lengths: what each returns, and the connection
after the last. -/
def readAll (c : WebSocketConnection) : List Nat → List (Except String Bytes) × WebSocketConnection
  | [] => ([], c)
  | bufLen :: bufLens =>
    let r := c.read bufLen
    let rest := r.2.readAll bufLens
    (r.1 :: rest.1, rest.2)

theorem take_min_length (l : Bytes) (n : Nat) : l.take (min n l.length) = l.take n := by
  rcases Nat.le_total n l.length with h | h
  · rw [Nat.min_eq_left h]
  · rw [Nat.min_eq_right h, List.take_length, List.take_of_length_le h]

theorem drop_min_length (l : Bytes) (n : Nat) : l.drop (min n l.length) = l.drop n := by
  rcases Nat.le_total n l.length with h | h
  · rw [Nat.min_eq_left h]
  · rw [Nat.min_eq_right h, List.drop_length, List.drop_of_length_le h]

/-- One `Read` returns the start of a nonempty `readBuf` and keeps the rest; or, with `readBuf`
empty, returns the start of the next message and keeps the rest of it; or, with nothing left,
fails and changes nothing. -/
theorem read_cases (c : WebSocketConnection) (bufLen : Nat) :
    (c.readBuf ≠ [] ∧
      c.read bufLen = (.ok (c.readBuf.take bufLen), { c with readBuf := c.readBuf.drop bufLen })) ∨
    (∃ data rest, c.readBuf = [] ∧ c.messages = data :: rest ∧
      c.read bufLen = (.ok (data.take bufLen),
        { c with readBuf := data.drop bufLen, messages := rest })) ∨
    (c.readBuf = [] ∧ c.messages = [] ∧ c.read bufLen = (.error c.readErr, c)) := by
  obtain ⟨buf, msgs, err⟩ := c
  cases buf with
  | cons x buf =>
    have h : (x :: buf).length > 0 := Nat.zero_lt_succ _
    exact .inl ⟨List.cons_ne_nil _ _, by simp only [read, h, if_true, take_min_length, drop_min_length]⟩
  | nil =>
    cases msgs with
    | nil => exact .inr (.inr ⟨rfl, rfl, rfl⟩)
    | cons data rest =>
      refine .inr (.inl ⟨data, rest, rfl, rfl, ?_⟩)
      simp only [read, List.length_nil, gt_iff_lt, Nat.lt_irrefl, if_false, take_min_length]
      congr 3
      split
      · rw [drop_min_length]
      · rw [List.drop_of_length_le (by omega)]

/-! ## Nothing lost or duplicated -/

/-- The bytes one `Read` returns, then `readBuf` and the messages not yet read, are what it started
from; and the messages not yet read are a suffix of those before. -/
theorem read_conserves (c : WebSocketConnection) (bufLen : Nat) :
    ((c.read bufLen).1.toOption.getD []) ++ (c.read bufLen).2.readBuf ++
      (c.read bufLen).2.messages.flatten = c.readBuf ++ c.messages.flatten ∧
    (c.read bufLen).2.messages <:+ c.messages := by
  rcases read_cases c bufLen with ⟨-, h⟩ | ⟨data, rest, hb, hm, h⟩ | ⟨-, -, h⟩ <;> rw [h]
  · exact ⟨by simp [Except.toOption], List.suffix_refl _⟩
  · refine ⟨by simp [Except.toOption, hb, hm], hm ▸ List.suffix_cons _ _⟩
  · exact ⟨by simp [Except.toOption], List.suffix_refl _⟩

theorem readAll_conserves (c : WebSocketConnection) (bufLens : List Nat) :
    ((c.readAll bufLens).1.filterMap Except.toOption).flatten ++ (c.readAll bufLens).2.readBuf ++
      (c.readAll bufLens).2.messages.flatten = c.readBuf ++ c.messages.flatten ∧
    (c.readAll bufLens).2.messages <:+ c.messages := by
  induction bufLens generalizing c with
  | nil => exact ⟨by simp [readAll], List.suffix_refl _⟩
  | cons bufLen bufLens ih =>
    obtain ⟨hc, hs⟩ := read_conserves c bufLen
    obtain ⟨hc', hs'⟩ := ih (c.read bufLen).2
    refine ⟨?_, hs'.trans hs⟩
    rw [← hc, List.append_assoc _ (c.read bufLen).2.readBuf, ← hc']
    simp only [readAll]
    cases (c.read bufLen).1 <;> simp [Except.toOption]

/-! ## One message at a time -/

/-- Reading from the messages `ms`: the messages not yet read are those after the first `j`, and
`readBuf` is empty or the rest of message `j - 1`. -/
def BufInv (ms : List Bytes) (c : WebSocketConnection) : Prop :=
  ∃ j, c.messages = ms.drop j ∧
    (c.readBuf = [] ∨ ∃ i, ∃ h : i < ms.length, j = i + 1 ∧ c.readBuf <:+ ms[i])

theorem drop_eq_cons {ms rest : List Bytes} {j : Nat} {data : Bytes} (h : ms.drop j = data :: rest) :
    ∃ hj : j < ms.length, data = ms[j] ∧ rest = ms.drop (j + 1) := by
  have hj : j < ms.length := by
    by_contra hj; rw [List.drop_of_length_le (by omega)] at h; cases h
  rw [List.drop_eq_getElem_cons hj] at h
  cases h
  exact ⟨hj, rfl, rfl⟩

/-- What a `Read` returns is a piece of the last message read by its end; and with residue left,
it reads no new message. -/
theorem read_of_bufInv {ms : List Bytes} {c : WebSocketConnection} (hc : BufInv ms c) (bufLen : Nat) :
    BufInv ms (c.read bufLen).2 ∧
    (∀ bytes, (c.read bufLen).1 = .ok bytes →
      ∃ i, ∃ h : i < ms.length, bytes <:+: ms[i] ∧ (c.read bufLen).2.messages = ms.drop (i + 1)) ∧
    (c.readBuf ≠ [] → (c.read bufLen).2.messages = c.messages) := by
  obtain ⟨j, hj, hbuf⟩ := hc
  rcases read_cases c bufLen with ⟨hne, h⟩ | ⟨data, rest, hb, hm, h⟩ | ⟨hb, hm, h⟩ <;> rw [h]
  · obtain ⟨i, hi, rfl, hsuf⟩ := hbuf.resolve_left hne
    refine ⟨⟨i + 1, hj, .inr ⟨i, hi, rfl, (List.drop_suffix _ _).trans hsuf⟩⟩,
      fun bytes hr => ⟨i, hi, ?_, hj⟩, fun _ => rfl⟩
    cases hr
    exact (List.take_prefix _ _).isInfix.trans hsuf.isInfix
  · obtain ⟨hlt, rfl, rfl⟩ := drop_eq_cons (hj ▸ hm)
    refine ⟨⟨j + 1, rfl, .inr ⟨j, hlt, rfl, List.drop_suffix _ _⟩⟩,
      fun bytes hr => ⟨j, hlt, ?_, rfl⟩, fun hne => absurd hb hne⟩
    cases hr
    exact (List.take_prefix _ _).isInfix
  · exact ⟨⟨j, hj, hbuf⟩, fun _ hr => (by cases hr), fun hne => absurd hb hne⟩

theorem bufInv_readAll {ms : List Bytes} {c : WebSocketConnection} (hc : BufInv ms c)
    (bufLens : List Nat) : BufInv ms (c.readAll bufLens).2 := by
  induction bufLens generalizing c with
  | nil => exact hc
  | cons bufLen bufLens ih => exact ih (read_of_bufInv hc bufLen).1

/-- A buffer shorter than a message returns it in pieces before the next message is read. -/
example : (WebSocketConnection.mk [] [[1, 2, 3], [4]] "EOF").readAll [2, 2, 2, 2] =
    ([.ok [1, 2], .ok [3], .ok [4], .error "EOF"], ⟨[], [], "EOF"⟩) := rfl

/-! ## Large buffers -/

/-- When every buffer is as long as every message, the `Read` calls return the messages one by
one, and the error of `ReadMessage` once they run out. -/
theorem readAll_of_large_buffers (ms : List Bytes) (readErr : String) (bufLens : List Nat)
    (h : ∀ n ∈ bufLens, ∀ m ∈ ms, m.length ≤ n) :
    (WebSocketConnection.mk [] ms readErr).readAll bufLens =
      ((ms.take bufLens.length).map .ok ++ List.replicate (bufLens.length - ms.length)
        (.error readErr), ⟨[], ms.drop bufLens.length, readErr⟩) := by
  induction bufLens generalizing ms with
  | nil => simp [readAll]
  | cons bufLen bufLens ih =>
    have hrest := fun ms' (hms : ∀ m ∈ ms', m ∈ ms) =>
      ih ms' fun n hn m hm => h n (.tail _ hn) m (hms m hm)
    cases ms with
    | nil => simp [readAll, read, List.replicate_succ, hrest [] (fun _ => id)]
    | cons m ms =>
      have hm : m.length ≤ bufLen := h bufLen (.head _) m (.head _)
      simp [readAll, read, Nat.min_eq_right hm, hrest ms (fun _ => .tail _)]

/-- `WebSocketConnection.Read` buffering, from a fresh connection (`readBuf` empty) over the
messages `ms`, whatever the buffer lengths: after any `Read` calls, the bytes returned and then
`readBuf` are the messages read so far, in order; each `Read` returns a piece of the last message
read by its end and reads no new message while residue is left; and when every buffer is as long
as every message, the `i`-th `Read` returns the `i`-th message. -/
theorem webSocket_read_buffering (ms : List Bytes) (readErr : String) :
    (∀ bufLens outs c, (WebSocketConnection.mk [] ms readErr).readAll bufLens = (outs, c) →
      c.messages = ms.drop (ms.length - c.messages.length) ∧
      (outs.filterMap Except.toOption).flatten ++ c.readBuf =
        (ms.take (ms.length - c.messages.length)).flatten) ∧
    (∀ bufLens outs c, (WebSocketConnection.mk [] ms readErr).readAll bufLens = (outs, c) →
      ∀ bufLen, (∀ bytes, (c.read bufLen).1 = .ok bytes →
        ∃ i, ∃ h : i < ms.length, bytes <:+: ms[i] ∧ (c.read bufLen).2.messages = ms.drop (i + 1)) ∧
      (c.readBuf ≠ [] → (c.read bufLen).2.messages = c.messages)) ∧
    (∀ bufLens, (∀ n ∈ bufLens, ∀ m ∈ ms, m.length ≤ n) →
      ((WebSocketConnection.mk [] ms readErr).readAll bufLens).1 =
        (ms.take bufLens.length).map .ok ++
          List.replicate (bufLens.length - ms.length) (.error readErr)) := by
  refine ⟨fun bufLens outs c hrun => ?_, fun bufLens outs c hrun bufLen => ?_,
    fun bufLens h => by rw [readAll_of_large_buffers ms readErr bufLens h]⟩
  · obtain ⟨hcons, hsuf⟩ := readAll_conserves ⟨[], ms, readErr⟩ bufLens
    rw [hrun] at hcons hsuf
    obtain ⟨pre, rfl⟩ := hsuf
    have hj : (pre ++ c.messages).length - c.messages.length = pre.length := by simp
    rw [hj, List.take_left, List.drop_left]
    refine ⟨rfl, List.append_cancel_right
      (show _ ++ c.messages.flatten = pre.flatten ++ c.messages.flatten from ?_)⟩
    simpa using hcons
  · have hinv := bufInv_readAll (c := ⟨[], ms, readErr⟩) ⟨0, rfl, .inl rfl⟩ bufLens
    rw [hrun] at hinv
    exact (read_of_bufInv hinv bufLen).2

end WebSocketConnection

end Hydra
