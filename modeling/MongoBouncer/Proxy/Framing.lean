import MongoBouncer.Runs
import MongoBouncer.Mongo.SessionManager

/-!
# Reading messages from a connection

A client sends its messages one after the other; each starts with its own size, as a 32-bit integer.
`readWireMessage` reads the size, makes the connection's buffer large enough for it, and reads the
rest of the message into the buffer.

* `Incoming`                   : what a client still sends, and how its stream ends;
* `WireReader.readWireMessage` : one call, with the buffer that calls share;
* `WireReader.Exact`           : the call fails, or returns the next bytes of the stream;
* `MeetsSize`                  : the sizes that stand where a message is read.

Principal result: `framing_exact_iff`.
-/

namespace MongoBouncer

open GoStd

/-! ## The stream -/

/-- An error of a read. -/
inductive ReadError where
  | eof
  | unexpectedEOF
  | other (err : GoError)
  deriving DecidableEq, Repr

/-- The error of a read that ended before all was read. -/
def ReadError.short : ReadError → ReadError
  | .eof => .unexpectedEOF
  | err => err

/-- What the client still sends, and the error with which its stream ends. -/
structure Incoming where
  bytes : Bytes
  ending : ReadError
  deriving DecidableEq, Repr

/-- `io.ReadFull` of `n` bytes: what was read, and the error if it was less. -/
def Incoming.readFull (s : Incoming) (n : Nat) : Bytes × Option ReadError × Incoming :=
  let read := s.bytes.take n
  let err :=
    if n ≤ s.bytes.length then none
    else if read = [] then some s.ending
    else some s.ending.short
  (read, err, { s with bytes := s.bytes.drop n })

theorem Incoming.readFull_of_le {s : Incoming} {n : Nat} (h : n ≤ s.bytes.length) :
    s.readFull n = (s.bytes.take n, none, { s with bytes := s.bytes.drop n }) := by
  simp [readFull, h]

theorem Incoming.readFull_of_lt {s : Incoming} {n : Nat} (h : s.bytes.length < n) :
    ∃ err, s.readFull n = (s.bytes.take n, some err, { s with bytes := s.bytes.drop n }) := by
  have hn : ¬ n ≤ s.bytes.length := by omega
  by_cases hread : s.bytes.take n = []
  · exact ⟨s.ending, by simp only [readFull, if_neg hn, if_pos hread]⟩
  · exact ⟨s.ending.short, by simp only [readFull, if_neg hn, if_neg hread]⟩

/-! ## One call -/

/-- The part of a connection that reads: its stream, and the array behind its buffer, whose length
is the capacity. -/
structure WireReader where
  conn : Incoming
  buffer : Bytes
  deriving DecidableEq, Repr

/-- How a call of `readWireMessage` ends. -/
inductive ReadResult where
  | message (wm : Bytes)
  | error (err : ReadError)
  | panicked
  deriving DecidableEq, Repr

/-- `copy` into an array, from position `i` on. -/
def overwrite (array : Bytes) (i : Nat) (new : Bytes) : Bytes :=
  array.take i ++ new ++ array.drop (i + new.length)

/-- The buffer, or a new one of the size if its capacity is smaller. -/
def grow (buffer : Bytes) (size : Int) : Bytes :=
  if size > buffer.length then List.replicate size.toNat 0 else buffer

theorem le_length_grow (buffer : Bytes) (size : Int) : size ≤ (grow buffer size).length := by
  unfold grow
  split
  · simp only [List.length_replicate]
    omega
  · omega

/-- `readWireMessage`. The slices `c.buffer[:size]` and `buffer[4:]` panic if they are out of
range. -/
def WireReader.readWireMessage (r : WireReader) : ReadResult × WireReader :=
  match r.conn.readFull 4 with
  | (_, some err, conn) => (.error err, { r with conn })
  | (sizeBuf, none, conn) =>
    let size := (((readi32 sizeBuf).map Prod.fst).getD 0).toInt
    let buffer := grow r.buffer size
    if size < 0 ∨ size > buffer.length then (.panicked, ⟨conn, buffer⟩)
    else
      let buffer := overwrite buffer 0 (sizeBuf.take size.toNat)
      if size < 4 then (.panicked, ⟨conn, buffer⟩)
      else
        match conn.readFull (size.toNat - 4) with
        | (read, some err, conn) => (.error err, ⟨conn, overwrite buffer 4 read⟩)
        | (read, none, conn) =>
          let buffer := overwrite buffer 4 read
          (.message (buffer.take size.toNat), ⟨conn, buffer⟩)

theorem readi32_eq_none {src : Bytes} : readi32 src = none ↔ src.length < 4 := by
  rcases src with _ | ⟨a, _ | ⟨b, _ | ⟨c, _ | ⟨d, rest⟩⟩⟩⟩
  all_goals simp [readi32]

theorem readi32_eq_some {src rest : Bytes} {size : Int32} (h : readi32 src = some (size, rest)) :
    4 ≤ src.length ∧ rest = src.drop 4 := by
  rcases src with _ | ⟨a, _ | ⟨b, _ | ⟨c, _ | ⟨d, src⟩⟩⟩⟩
  all_goals simp [readi32] at h
  simp [h.2]

theorem readi32_take {src rest : Bytes} {size : Int32} (h : readi32 src = some (size, rest))
    {n : Nat} (hn : 4 ≤ n) : readi32 (src.take n) = some (size, rest.take (n - 4)) := by
  obtain ⟨k, rfl⟩ := Nat.exists_eq_add_of_le' hn
  rcases src with _ | ⟨a, _ | ⟨b, _ | ⟨c, _ | ⟨d, src⟩⟩⟩⟩
  all_goals simp [readi32] at h
  simp [readi32, h.1, h.2]

namespace WireReader

variable {r : WireReader} {size : Int32} {rest : Bytes}

theorem readWireMessage_ends (h : readi32 r.conn.bytes = none) :
    ∃ err r', r.readWireMessage = (.error err, r') := by
  obtain ⟨err, hread⟩ := Incoming.readFull_of_lt (readi32_eq_none.mp h)
  exact ⟨err, _, by rw [readWireMessage, hread]⟩

/-- What a call writes into the buffer: as much of the next message as has arrived. -/
def written (r : WireReader) : Bytes :=
  match readi32 r.conn.bytes with
  | some (size, _) => r.conn.bytes.take size.toInt.toNat
  | none => []

theorem overwrite_overwrite (array p q : Bytes) :
    overwrite (overwrite array 0 p) p.length q = overwrite array 0 (p ++ q) := by
  simp [overwrite, List.drop_append]

section

variable (h : readi32 r.conn.bytes = some (size, rest))

include h

theorem size_of_readi32 :
    r.conn.readFull 4 = (r.conn.bytes.take 4, none, { r.conn with bytes := rest }) ∧
      (((readi32 (r.conn.bytes.take 4)).map Prod.fst).getD 0).toInt = size.toInt := by
  obtain ⟨hlen, rfl⟩ := readi32_eq_some h
  exact ⟨Incoming.readFull_of_le hlen, by rw [readi32_take h (Nat.le_refl 4)]; rfl⟩

theorem readWireMessage_small
    (hsize : size.toInt < 4) : ∃ r', r.readWireMessage = (.panicked, r') := by
  obtain ⟨hread, hsizeBuf⟩ := size_of_readi32 h
  unfold readWireMessage
  rw [hread]
  simp only [hsizeBuf, if_pos hsize]
  by_cases hrange : size.toInt < 0 ∨ size.toInt > (grow r.buffer size.toInt).length
  · exact ⟨_, if_pos hrange⟩
  · exact ⟨_, if_neg hrange⟩

/-- A size that is at least that of the size itself fits into the buffer, whatever its capacity
was. What is written there is the same whether the message is whole or not. -/
theorem readWireMessage_of_le (hsize : 4 ≤ size.toInt) : r.readWireMessage =
      let buffer := overwrite (grow r.buffer size.toInt) 0 r.written
      match ({ r.conn with bytes := rest } : Incoming).readFull (size.toInt.toNat - 4) with
      | (_, some err, conn) => (.error err, ⟨conn, buffer⟩)
      | (_, none, conn) => (.message (buffer.take size.toInt.toNat), ⟨conn, buffer⟩) := by
  obtain ⟨hread, hsizeBuf⟩ := size_of_readi32 h
  have hrange : ¬ (size.toInt < 0 ∨ size.toInt > (grow r.buffer size.toInt).length) := by
    have hgrow := le_length_grow r.buffer size.toInt
    omega
  have hsmall : ¬ size.toInt < 4 := by omega
  have htake : (r.conn.bytes.take 4).take size.toInt.toNat = r.conn.bytes.take 4 := by
    apply List.take_of_length_le
    simp only [List.length_take]
    omega
  have hwrites : overwrite (overwrite (grow r.buffer size.toInt) 0 (r.conn.bytes.take 4)) 4
      (rest.take (size.toInt.toNat - 4)) = overwrite (grow r.buffer size.toInt) 0 r.written := by
    obtain ⟨hfour, hrest⟩ := readi32_eq_some h
    have hfirst : (r.conn.bytes.take 4).length = 4 := by
      rw [List.length_take]
      omega
    have hsum : 4 + (size.toInt.toNat - 4) = size.toInt.toNat := by omega
    have hboth := overwrite_overwrite (grow r.buffer size.toInt) (r.conn.bytes.take 4)
      (rest.take (size.toInt.toNat - 4))
    rw [hfirst, hrest, ← List.take_add, hsum, ← hrest] at hboth
    rw [hboth, written, h]
  unfold readWireMessage
  rw [hread]
  simp only [hsizeBuf, if_neg hrange, if_neg hsmall, htake]
  rcases Nat.lt_or_ge rest.length (size.toInt.toNat - 4) with hlt | hle
  · obtain ⟨err, hcut⟩ := @Incoming.readFull_of_lt { r.conn with bytes := rest } _ hlt
    simp only [hcut, hwrites]
  · simp only [@Incoming.readFull_of_le { r.conn with bytes := rest } _ hle, hwrites]

theorem readWireMessage_cut (hsize : 4 ≤ size.toInt) (hlen : r.conn.bytes.length < size.toInt) :
    ∃ err r', r.readWireMessage = (.error err, r') := by
  obtain ⟨hfour, hrest⟩ := readi32_eq_some h
  have hshort : rest.length < size.toInt.toNat - 4 := by
    rw [hrest, List.length_drop]
    omega
  obtain ⟨err, hread⟩ :=
    @Incoming.readFull_of_lt { r.conn with bytes := rest } (size.toInt.toNat - 4) hshort
  exact ⟨err, _, by rw [readWireMessage_of_le h hsize, hread]⟩

/-- **A message that has arrived is read as it is, and the stream goes on behind it.** -/
theorem readWireMessage_whole (hsize : 4 ≤ size.toInt) (hlen : size.toInt ≤ r.conn.bytes.length) :
    ∃ buffer, r.readWireMessage = (.message (r.conn.bytes.take size.toInt.toNat),
      ⟨{ r.conn with bytes := r.conn.bytes.drop size.toInt.toNat }, buffer⟩) := by
  obtain ⟨hfour, hrest⟩ := readi32_eq_some h
  have hle : size.toInt.toNat - 4 ≤ rest.length := by
    rw [hrest, List.length_drop]
    omega
  have hlength : (r.conn.bytes.take size.toInt.toNat).length = size.toInt.toNat := by
    rw [List.length_take]
    omega
  refine ⟨overwrite (grow r.buffer size.toInt) 0 r.written, ?_⟩
  rw [readWireMessage_of_le h hsize, @Incoming.readFull_of_le { r.conn with bytes := rest } _ hle]
  have htake : (overwrite (grow r.buffer size.toInt) 0 r.written).take size.toInt.toNat =
      r.conn.bytes.take size.toInt.toNat := by
    rw [written, h]
    simp only [overwrite, List.take_zero, List.nil_append]
    exact List.take_left' hlength
  have hsum : 4 + (size.toInt.toNat - 4) = size.toInt.toNat := by omega
  simp only [htake, hrest, List.drop_drop, hsum]

/-- The buffer after a call: what it was, or a larger one, under what the call writes. -/
theorem buffer_readWireMessage :
    r.readWireMessage.2.buffer = overwrite (grow r.buffer size.toInt) 0 r.written := by
  by_cases hsize : 4 ≤ size.toInt
  · rw [readWireMessage_of_le h hsize]
    split <;> rfl
  · obtain ⟨hread, hsizeBuf⟩ := size_of_readi32 h
    have hgrow := le_length_grow r.buffer size.toInt
    unfold readWireMessage written
    rw [hread, h]
    simp only [hsizeBuf]
    by_cases hneg : size.toInt < 0
    · have hzero : size.toInt.toNat = 0 := by omega
      rw [if_pos (Or.inl hneg), hzero]
      simp [overwrite]
    · have hmin : min size.toInt.toNat 4 = size.toInt.toNat := by omega
      rw [if_neg (by omega), if_pos (by omega), List.take_take, hmin]

end

theorem buffer_of_fits (h : r.readWireMessage.2.buffer.length = r.buffer.length) :
    r.readWireMessage.2.buffer = overwrite r.buffer 0 r.written := by
  cases hread : readi32 r.conn.bytes with
  | none =>
    obtain ⟨err, hfull⟩ := Incoming.readFull_of_lt (readi32_eq_none.mp hread)
    simp [readWireMessage, hfull, written, hread, overwrite]
  | some p =>
    have hbuffer := buffer_readWireMessage hread
    have hfits : grow r.buffer p.1.toInt = r.buffer := by
      have hle := le_length_grow r.buffer p.1.toInt
      rw [hbuffer] at h
      simp only [overwrite, List.take_zero, List.nil_append, List.length_append,
        List.length_drop] at h
      exact if_neg (by omega)
    rw [hbuffer, hfits]

theorem getElem?_overwrite (array new : Bytes) (i : Nat) :
    (overwrite array 0 new)[i]? = new[i]?.or array[i]? := by
  simp only [overwrite, List.take_zero, List.nil_append, Nat.zero_add]
  by_cases hi : i < new.length
  · rw [List.getElem?_append_left hi, List.getElem?_eq_getElem hi]
    rfl
  · have hle : new.length ≤ i := Nat.le_of_not_lt hi
    rw [List.getElem?_append_right hle, List.getElem?_drop, List.getElem?_eq_none hle,
      Nat.add_sub_cancel' hle]
    rfl

end WireReader

/-! ## A whole connection -/

/-- The call returns a message. -/
def WireReader.NextMessage (r : WireReader) (wm : Bytes) (r' : WireReader) : Prop :=
  r.readWireMessage = (.message wm, r')

/-- The call fails, or returns the next bytes of the stream, as many as their size says. -/
def WireReader.Exact (r : WireReader) : Prop :=
  (∃ err r', r.readWireMessage = (.error err, r')) ∨
    ∃ wm r' size rest, r.NextMessage wm r' ∧ r.conn.bytes = wm ++ r'.conn.bytes ∧
      readi32 wm = some (size, rest) ∧ size.toInt = wm.length

/-- A size that stands where a message is read: at the beginning of a stream, or behind a whole
message. -/
inductive MeetsSize : Bytes → Int32 → Prop where
  | first {bytes rest : Bytes} {size : Int32} (h : readi32 bytes = some (size, rest)) :
      MeetsSize bytes size
  | later {bytes rest : Bytes} {size size' : Int32} (h : readi32 bytes = some (size, rest))
      (hsize : 4 ≤ size.toInt) (hlen : size.toInt ≤ bytes.length)
      (hmeets : MeetsSize (bytes.drop size.toInt.toNat) size') : MeetsSize bytes size'

namespace WireReader

variable {r r' : WireReader} {wm : Bytes} {msgs : List Bytes}

theorem NextMessage.inv (h : r.NextMessage wm r') :
    ∃ size rest, readi32 r.conn.bytes = some (size, rest) ∧ 4 ≤ size.toInt ∧
      size.toInt ≤ r.conn.bytes.length ∧ wm = r.conn.bytes.take size.toInt.toNat ∧
      r'.conn.bytes = r.conn.bytes.drop size.toInt.toNat := by
  cases hread : readi32 r.conn.bytes with
  | none =>
    obtain ⟨err, r'', herr⟩ := readWireMessage_ends hread
    rw [NextMessage, herr] at h
    cases h
  | some p =>
    obtain ⟨size, rest⟩ := p
    by_cases hsize : size.toInt < 4
    · obtain ⟨r'', hpanic⟩ := readWireMessage_small hread hsize
      rw [NextMessage, hpanic] at h
      cases h
    · have hsize' : 4 ≤ size.toInt := by omega
      by_cases hlen : r.conn.bytes.length < size.toInt
      · obtain ⟨err, r'', herr⟩ := readWireMessage_cut hread hsize' hlen
        rw [NextMessage, herr] at h
        cases h
      · have hlen' : size.toInt ≤ r.conn.bytes.length := by omega
        obtain ⟨buffer, hmsg⟩ := readWireMessage_whole hread hsize' hlen'
        rw [NextMessage, hmsg] at h
        cases h
        exact ⟨size, rest, rfl, hsize', hlen', rfl, rfl⟩

theorem NextMessage.isPrefix (h : r.NextMessage wm r') : wm <+: r'.buffer := by
  obtain ⟨size, rest, hread, -, -, rfl, -⟩ := h.inv
  have hbuffer := buffer_readWireMessage hread
  rw [show r.readWireMessage.2 = r' from congrArg Prod.snd h, written, hread] at hbuffer
  rw [hbuffer]
  simp [overwrite]

theorem NextMessage.consecutive (h : r.NextMessage wm r') : r.conn.bytes = wm ++ r'.conn.bytes := by
  obtain ⟨size, rest, _, _, _, rfl, hdrop⟩ := h.inv
  rw [hdrop, List.take_append_drop]

/-- One call is exact if, and only if, the size at its beginning is not too small. -/
theorem exact_iff :
    r.Exact ↔ ∀ size rest, readi32 r.conn.bytes = some (size, rest) → 4 ≤ size.toInt := by
  constructor
  · intro h size rest hread
    by_contra hsize
    obtain ⟨r'', hpanic⟩ := readWireMessage_small hread (by omega)
    rcases h with ⟨err, r', herr⟩ | ⟨wm, r', _, _, hmsg, _⟩
    · rw [hpanic] at herr
      cases herr
    · rw [NextMessage, hpanic] at hmsg
      cases hmsg
  · intro h
    cases hread : readi32 r.conn.bytes with
    | none => exact Or.inl (readWireMessage_ends hread)
    | some p =>
      obtain ⟨size, rest⟩ := p
      have hsize := h size rest hread
      by_cases hlen : r.conn.bytes.length < size.toInt
      · exact Or.inl (readWireMessage_cut hread hsize hlen)
      · obtain ⟨buffer, hmsg⟩ := readWireMessage_whole hread hsize (by omega)
        refine Or.inr ⟨_, _, size, _, hmsg, (List.take_append_drop _ _).symm,
          readi32_take hread (by omega), ?_⟩
        rw [List.length_take]
        omega

theorem NextMessage.meetsSize (h : r.NextMessage wm r') {size : Int32}
    (hmeets : MeetsSize r'.conn.bytes size) : MeetsSize r.conn.bytes size := by
  obtain ⟨size', rest, hread, hsize, hlen, _, hdrop⟩ := h.inv
  rw [hdrop] at hmeets
  exact .later hread hsize hlen hmeets

theorem consecutive_of_runs (h : Runs NextMessage r msgs r') :
    r.conn.bytes = msgs.flatten ++ r'.conn.bytes := by
  refine h.invariant_log (P := fun msgs r' => r.conn.bytes = msgs.flatten ++ r'.conn.bytes) rfl ?_
  intro msgs s wm s' hs hnext
  rw [hs, hnext.consecutive]
  simp

theorem meetsSize_of_runs (h : Runs NextMessage r msgs r') {size : Int32}
    (hmeets : MeetsSize r'.conn.bytes size) : MeetsSize r.conn.bytes size := by
  refine h.invariant (P := fun r' => ∀ size, MeetsSize r'.conn.bytes size →
    MeetsSize r.conn.bytes size) (fun _ hm => hm) ?_ size hmeets
  intro s wm s' hs hnext size hm
  exact hs size (hnext.meetsSize hm)

theorem exists_runs_of_meetsSize {bytes : Bytes} {size : Int32} (h : MeetsSize bytes size)
    (r : WireReader) (hr : r.conn.bytes = bytes) :
    ∃ msgs r' rest, Runs NextMessage r msgs r' ∧ readi32 r'.conn.bytes = some (size, rest) := by
  induction h generalizing r with
  | first h =>
    rw [← hr] at h
    exact ⟨[], r, _, .start, h⟩
  | later h hsize hlen _ ih =>
    rw [← hr] at h hlen ih
    obtain ⟨buffer, hmsg⟩ := readWireMessage_whole h hsize hlen
    have hone := Runs.step (R := NextMessage) .start hmsg
    obtain ⟨msgs, r', rest, hruns, hread⟩ := ih ⟨⟨_, r.conn.ending⟩, buffer⟩ rfl
    exact ⟨_, r', rest, hone.append hruns, hread⟩

end WireReader

/-- **Framing is safe and exact if, and only if, no message starts with a size below four.** Calls
on one connection return consecutive messages, whatever its buffer held before, and the next call
fails or returns the next one. -/
theorem framing_exact_iff (r : WireReader) :
    (∀ msgs r', Runs WireReader.NextMessage r msgs r' →
      r.conn.bytes = msgs.flatten ++ r'.conn.bytes ∧ r'.Exact) ↔
    ∀ size, MeetsSize r.conn.bytes size → 4 ≤ size.toInt := by
  constructor
  · intro h size hmeets
    obtain ⟨msgs, r', rest, hruns, hread⟩ := WireReader.exists_runs_of_meetsSize hmeets r rfl
    exact WireReader.exact_iff.mp (h msgs r' hruns).2 size rest hread
  · intro h msgs r' hruns
    refine ⟨WireReader.consecutive_of_runs hruns, WireReader.exact_iff.mpr ?_⟩
    intro size rest hread
    exact h size (WireReader.meetsSize_of_runs hruns (.first hread))

/-- A negative size, and one that is smaller than the size itself, are out of range. -/
theorem smallSize_panics :
    (WireReader.readWireMessage ⟨⟨[0xFF, 0xFF, 0xFF, 0xFF, 0, 0], .eof⟩, []⟩).1 = .panicked ∧
    (WireReader.readWireMessage ⟨⟨[2, 0, 0, 0, 0, 0], .eof⟩, List.replicate 16 7⟩).1 =
      .panicked := by
  decide +kernel

end MongoBouncer
