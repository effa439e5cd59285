/-
# The decoder against whole streams

The decoder refuses a byte exactly when no valid stream goes on with it: the
first byte of a character and the marks of its continuations are all that it
checks before the character is complete, and what is refused then is refused by
every valid stream (`pushByte_takes`). So the pushes of a stream and its end
succeed when the stream is valid, what is written is at any point the longest
valid start of what was taken, and where the stream is cut makes no difference
(`pushAll_eq`).

Key definitions: `Retains`, `Takes`, `Decoded`, `LongestValid`.
Key theorems: `pushByte_takes`, `pushEach_decodes`, `pushAll_eq`, `decoding_exact`.
-/
import LlmApp.Tokenization.Utf8

namespace LlmApp

variable {S : Type} {sink : TextSink S} {s : Decoding S} {d : IncrementalUtf8Decoder} {p : List UInt8} {byte : UInt8}

/-- The decoder keeps the bytes `p` of an unfinished character, or none. -/
structure Retains (d : IncrementalUtf8Decoder) (p : List UInt8) : Prop where
  length : d.pendingLength.toNat = p.length
  bytes : d.pending.toList.take p.length = p
  unfinished : ∀ x l, p = x :: l → leadLength x = some d.expectedLength.toNat ∧ p.length < d.expectedLength.toNat ∧
    ∀ y ∈ l, IsContinuation y

namespace Retains

theorem new : Retains .new [] := ⟨rfl, rfl, nofun⟩

theorem eq_nil_or (h : Retains d p) : p = [] ∨ Unfinished p := by
  cases p with
  | nil => exact .inl rfl
  | cons x l =>
    obtain ⟨hlead, hlt, hrest⟩ := h.unfinished x l rfl
    exact .inr ⟨x, l, _, rfl, hlead, hlt, hrest⟩

theorem length_eq_zero_iff (h : Retains d p) : d.pendingLength = 0 ↔ p = [] := by
  rw [← List.length_eq_zero_iff, ← h.length, ← UInt8.toNat_inj]
  rfl

theorem lead_le {x : UInt8} {n : ℕ} (h : leadLength x = some n) : n ≤ 4 := by
  unfold leadLength at h
  split_ifs at h
  · cases h
    decide
  · exact (multibyteLength_bounds h).2

theorem length_lt (h : Retains d p) : p.length < 4 := by
  cases p with
  | nil => exact Nat.zero_lt_succ _
  | cons x l =>
    obtain ⟨hlead, hlt, -⟩ := h.unfinished x l rfl
    exact hlt.trans_le (lead_le hlead)

end Retains

/-! ### One byte -/

/-- There is nothing to hand on while a character is unfinished. -/
theorem flushComplete_pending (h : Retains s.decoder p) : flushComplete sink s = (.ok (), s) := by
  refine if_pos ?_
  cases p with
  | nil => exact .inl (h.length_eq_zero_iff.mpr rfl)
  | cons x l =>
    refine .inr fun heq => ?_
    obtain ⟨-, hlt, -⟩ := h.unfinished x l rfl
    rw [← heq, h.length] at hlt
    exact absurd hlt (lt_irrefl _)

/-- What becomes of a byte after the bytes `p`: it is kept, it completes a character, or no valid
stream goes on with it. -/
inductive Takes (sink : TextSink S) (p : List UInt8) (byte : UInt8) (s : Decoding S) :
    Except TokenizationError Unit × Decoding S → Prop where
  | kept (d : IncrementalUtf8Decoder) : Retains d (p ++ [byte]) → Takes sink p byte s (.ok (), { s with decoder := d })
  | completed (output : S) : ValidUtf8 (p ++ [byte]) → sink.written output = sink.written s.output ++ (p ++ [byte]) →
      sink.remainingCapacity s.output ≤ sink.remainingCapacity output + (p ++ [byte]).length →
        Takes sink p byte s (.ok (), { s with decoder := .new, output })
  | refused (d : IncrementalUtf8Decoder) (b : UInt8) : (∀ rest, ¬ValidUtf8 (p ++ byte :: rest)) →
      Takes sink p byte s (.error (.invalidUtf8 b), { s with decoder := d })

/-- A complete character is handed on if it is valid. -/
theorem flushComplete_takes (hlength : d.pendingLength.toNat = (p ++ [byte]).length)
    (hexpected : d.expectedLength = d.pendingLength) (hbytes : d.pending.toList.take (p ++ [byte]).length = p ++ [byte])
    (hle : (p ++ [byte]).length ≤ 4) (hroom : (p ++ [byte]).length ≤ sink.remainingCapacity s.output)
    (hwhole : ∀ rest, ValidUtf8 (p ++ byte :: rest) → ValidUtf8 (p ++ [byte])) :
    Takes sink p byte s (flushComplete sink { s with decoder := d }) := by
  have hne : d.pendingLength ≠ 0 := by
    intro hzero
    rw [hzero, List.length_append] at hlength
    cases hlength
  have hcond : ¬(d.pendingLength = 0 ∨ d.pendingLength ≠ d.expectedLength) := by
    rw [hexpected]
    exact not_or.mpr ⟨hne, not_not.mpr rfl⟩
  unfold flushComplete
  dsimp only
  rw [if_neg hcond, hexpected, hlength, if_neg hle.not_gt, hbytes]
  cases htext : fromUtf8 (p ++ [byte]) with
  | none =>
    refine .refused _ _ fun rest hvalid => ?_
    obtain ⟨text, hutf8⟩ := hwhole rest hvalid
    cases htext.symm.trans (fromUtf8_eq_some.mpr hutf8)
  | some text =>
    have hutf8 := fromUtf8_eq_some.mp htext
    rw [← hutf8] at hroom
    obtain ⟨hok, hwritten, hcapacity⟩ := sink.push_fits hroom
    rcases hpush : sink.pushStr s.output text with ⟨result, output⟩
    rw [hpush] at hok hwritten hcapacity
    obtain rfl : result = .ok () := hok
    rw [hutf8] at hwritten hcapacity
    dsimp only
    rw [hpush]
    exact .completed output ⟨text, hutf8⟩ hwritten hcapacity

/-- The first byte of a character. -/
theorem pushByte_lead (h : Retains s.decoder []) (hroom : 1 ≤ sink.remainingCapacity s.output) :
    Takes sink [] byte s (pushByte sink byte s) := by
  have hset : ((s.decoder.pending.set 0 byte).toList).take 1 = [byte] := by
    rw [Vector.toList_set]
    have hlt : 0 < s.decoder.pending.toList.length := by
      rw [Vector.length_toList]
      decide
    exact take_set_succ hlt byte
  unfold pushByte
  rw [if_pos (h.length_eq_zero_iff.mpr rfl)]
  split_ifs with hascii
  · refine flushComplete_takes rfl rfl hset (by simp) hroom fun rest hvalid => ?_
    obtain ⟨n, hlead, -, -, hone⟩ := ValidUtf8.lead hvalid
    rw [leadLength, if_pos hascii] at hlead
    obtain rfl : n = 0 := (Nat.succ.inj (Option.some.inj hlead)).symm
    exact hone
  · have hlead := leadLength_multibyte hascii
    split
    · next hnone =>
      simp only [hnone] at hlead
      refine .refused s.decoder byte fun rest hvalid => ?_
      obtain ⟨n, hsome, -⟩ := ValidUtf8.lead hvalid
      rw [hlead] at hsome
      cases hsome
    · next n hsome =>
      simp only [hsome] at hlead
      obtain ⟨hstarts, htwo, hfour⟩ := hlead
      have hn : (UInt8.ofNat n).toNat = n := by
        rw [UInt8.toNat_ofNat', Nat.mod_eq_of_lt (by omega)]
      refine .kept _ ⟨rfl, hset, ?_⟩
      rintro x l hx
      obtain ⟨rfl, rfl⟩ := List.cons.inj hx
      refine ⟨by rw [hstarts, hn], ?_, List.forall_mem_nil _⟩
      change 1 < (UInt8.ofNat n).toNat
      omega

/-- A byte after the first ones of a character. -/
theorem pushByte_next {x : UInt8} {l : List UInt8} (h : Retains s.decoder (x :: l))
    (hroom : (x :: l).length + 1 ≤ sink.remainingCapacity s.output) :
    Takes sink (x :: l) byte s (pushByte sink byte s) := by
  obtain ⟨hlead, hlt, hrest⟩ := h.unfinished x l rfl
  have hfour := h.length_lt
  have hlength := h.length
  -- What a valid stream has where the byte is.
  have hvalid : ∀ rest, ValidUtf8 (x :: l ++ byte :: rest) → IsContinuation byte ∧
      ((x :: l).length + 1 = s.decoder.expectedLength.toNat → ValidUtf8 (x :: l ++ [byte])) := by
    intro rest (hvalid : ValidUtf8 (x :: (l ++ byte :: rest)))
    obtain ⟨n, hlead', -, hcontinuations, hwhole⟩ := hvalid.lead
    have hn := Option.some.inj (hlead.symm.trans hlead')
    rw [hn, List.length_cons] at hlt
    have htake : (l ++ byte :: rest).take n = l ++ byte :: rest.take (n - l.length - 1) := by
      obtain ⟨k, rfl⟩ := Nat.exists_eq_add_of_lt (Nat.lt_of_succ_lt_succ hlt)
      rw [List.take_append, List.take_of_length_le (by omega), show l.length + k + 1 - l.length = k + 1 by omega,
        List.take_succ_cons, Nat.add_sub_cancel]
    rw [htake] at hcontinuations hwhole
    refine ⟨hcontinuations byte (List.mem_append_right _ List.mem_cons_self), fun hlast => ?_⟩
    rw [hn, List.length_cons] at hlast
    rwa [show n - l.length - 1 = 0 by omega, List.take_zero] at hwhole
  have hne : s.decoder.pendingLength ≠ 0 := fun hzero => by cases h.length_eq_zero_iff.mp hzero
  have hpending : s.decoder.pendingLength.toNat < s.decoder.pending.toList.length := by
    rw [Vector.length_toList, hlength]
    exact hfour
  have hset : ((s.decoder.pending.setIfInBounds s.decoder.pendingLength.toNat byte).toList).take (x :: l ++ [byte]).length =
      x :: l ++ [byte] := by
    rw [List.length_append, List.length_singleton, ← hlength, Vector.toList_setIfInBounds, take_set_succ hpending, hlength,
      h.bytes]
  have hsucc : (u8SaturatingSucc s.decoder.pendingLength).toNat = (x :: l ++ [byte]).length := by
    rw [List.length_append, List.length_singleton, ← hlength, u8SaturatingSucc, if_neg, UInt8.toNat_add]
    · exact Nat.mod_eq_of_lt (by rw [hlength]; exact (Nat.succ_lt_succ hfour).trans (by decide))
    · intro hmax
      rw [hmax] at hlength
      exact absurd (hlength ▸ hfour) (by decide)
  unfold pushByte
  rw [if_neg hne]
  by_cases hcontinuation : IsContinuation byte
  swap
  · rw [if_pos hcontinuation]
    exact .refused _ _ fun rest hstream => hcontinuation (hvalid rest hstream).1
  rw [if_neg (not_not.mpr hcontinuation), if_neg (by rw [hlength]; exact hfour.not_ge)]
  dsimp only
  by_cases hexpected : u8SaturatingSucc s.decoder.pendingLength = s.decoder.expectedLength
  · rw [if_neg (not_not.mpr hexpected)]
    refine flushComplete_takes hsucc hexpected.symm hset ?_ ?_ fun rest hstream => (hvalid rest hstream).2 ?_
    · rw [List.length_append, List.length_singleton]
      exact hfour
    · rwa [List.length_append, List.length_singleton]
    · rw [← hexpected, hsucc, List.length_append, List.length_singleton]
  · rw [if_pos hexpected]
    refine .kept _ ⟨hsucc, hset, ?_⟩
    rintro x' l' hx
    rw [List.cons_append] at hx
    obtain ⟨rfl, rfl⟩ := List.cons.inj hx
    refine ⟨hlead, ?_, ?_⟩
    · have hdiffer : (x :: l ++ [byte]).length ≠ s.decoder.expectedLength.toNat := by
        rw [← hsucc]
        exact fun heq => hexpected (UInt8.toNat_inj.mp heq)
      rw [List.length_append, List.length_singleton] at hdiffer ⊢
      exact lt_of_le_of_ne hlt hdiffer
    · intro y hy
      rcases List.mem_append.mp hy with hy | hy
      · exact hrest y hy
      · rwa [List.mem_singleton.mp hy]

theorem pushByte_takes (h : Retains s.decoder p) (hroom : p.length + 1 ≤ sink.remainingCapacity s.output) :
    Takes sink p byte s (pushByte sink byte s) := by
  cases p with
  | nil => exact pushByte_lead h hroom
  | cons x l => exact pushByte_next h hroom

/-! ### Runs -/

/-- The longest valid start of the bytes. -/
def LongestValid (e bytes : List UInt8) : Prop := e <+: bytes ∧ ValidUtf8 e ∧ ∀ q, q <+: bytes → ValidUtf8 q → q <+: e

/-- After the bytes `stream`: the text `e` is written, and `p` is kept. -/
structure Decoded (sink : TextSink S) (start : S) (stream e p : List UInt8) (s : Decoding S) : Prop where
  split : stream = e ++ p
  valid : ValidUtf8 e
  pending : Retains s.decoder p
  written : sink.written s.output = sink.written start ++ e
  room : sink.remainingCapacity start ≤ sink.remainingCapacity s.output + e.length
  taken : s.taken = stream.length

/-- A failure leaves the text of the bytes before it, and no valid stream goes on past it. -/
def RefusedAt (sink : TextSink S) (start : S) (stream bytes : List UInt8) (s : Decoding S) : Prop :=
  ∃ done byte rest, bytes = done ++ byte :: rest ∧ s.taken = (stream ++ done).length ∧
    (∃ e, LongestValid e (stream ++ done) ∧ sink.written s.output = sink.written start ++ e) ∧
    ∀ rest, ¬ValidUtf8 (stream ++ done ++ byte :: rest)

variable {start : S} {stream bytes e : List UInt8}

theorem Decoded.longest (h : Decoded sink start stream e p s) : LongestValid e stream := by
  rw [h.split]
  exact ⟨List.prefix_append e p, h.valid, fun q hq hvalid => Unfinished.prefix_of_valid h.valid h.pending.eq_nil_or hq hvalid⟩

theorem Decoded.room_left (h : Decoded sink start stream e p s) {n : ℕ}
    (hroom : stream.length + n ≤ sink.remainingCapacity start) : p.length + n ≤ sink.remainingCapacity s.output := by
  have hcapacity := h.room
  have hlength := congrArg List.length h.split
  rw [List.length_append] at hlength
  omega

theorem decoded_new (start : S) : Decoded sink start [] [] [] ⟨.new, start, 0⟩ :=
  ⟨rfl, validUtf8_nil, .new, (List.append_nil _).symm, le_rfl, rfl⟩

/-- One byte of a push, with the count of the bytes. -/
theorem pushByte_decodes (byte : UInt8) (h : Decoded sink start stream e p s)
    (hroom : stream.length + 1 ≤ sink.remainingCapacity start) :
    (∃ s' e' p', pushByte sink byte s = (.ok (), s') ∧
      Decoded sink start (stream ++ [byte]) e' p' { s' with taken := s'.taken + 1 }) ∨
    ∃ b s', pushByte sink byte s = (.error (.invalidUtf8 b), s') ∧ s'.taken = stream.length ∧
      sink.written s'.output = sink.written start ++ e ∧ ∀ rest, ¬ValidUtf8 (stream ++ byte :: rest) := by
  have htakes : Takes sink p byte s (pushByte sink byte s) := pushByte_takes h.pending (h.room_left hroom)
  have hlength : s.taken + 1 = (stream ++ [byte]).length := by
    rw [h.taken, List.length_append, List.length_singleton]
  generalize pushByte sink byte s = outcome at htakes
  cases htakes with
  | kept d hpending =>
    refine .inl ⟨_, e, p ++ [byte], rfl, ?_, h.valid, hpending, h.written, h.room, hlength⟩
    rw [h.split, List.append_assoc]
  | completed output hvalid hwritten hcapacity =>
    refine .inl ⟨_, e ++ (p ++ [byte]), [], rfl, ?_, ?_, .new, ?_, ?_, hlength⟩
    · rw [h.split, List.append_assoc, List.append_nil]
    · exact (validUtf8_append h.valid).mpr hvalid
    · change sink.written output = _
      rw [hwritten, h.written, List.append_assoc]
    · have hroom' := h.room
      change _ ≤ sink.remainingCapacity output + _
      rw [List.length_append]
      omega
  | refused d b hinvalid =>
    refine .inr ⟨b, _, rfl, h.taken, h.written, fun rest hvalid => hinvalid rest ?_⟩
    rw [h.split, List.append_assoc] at hvalid
    exact (validUtf8_append h.valid).mp hvalid

theorem pushEach_cons_ok {s' : Decoding S} (h : pushByte sink byte s = (.ok (), s')) :
    pushEach sink (byte :: bytes) s = pushEach sink bytes { s' with taken := s'.taken + 1 } := by
  rw [pushEach, Fallible.bind_ok h]
  exact Fallible.bind_ok rfl

/-- The bytes of a push are decoded, or one of them is refused. -/
theorem pushEach_decodes (h : Decoded sink start stream e p s)
    (hroom : (stream ++ bytes).length ≤ sink.remainingCapacity start) :
    (∃ s' e' p', pushEach sink bytes s = (.ok (), s') ∧ Decoded sink start (stream ++ bytes) e' p' s') ∨
    ∃ b s', pushEach sink bytes s = (.error (.invalidUtf8 b), s') ∧ RefusedAt sink start stream bytes s' := by
  induction bytes generalizing stream e p s with
  | nil => exact .inl ⟨s, e, p, rfl, by rwa [List.append_nil]⟩
  | cons byte bytes ih =>
    have hsplit : stream ++ byte :: bytes = stream ++ [byte] ++ bytes := by rw [List.append_assoc, List.singleton_append]
    have hone : stream.length + 1 ≤ sink.remainingCapacity start := by
      rw [List.length_append, List.length_cons] at hroom
      omega
    rw [hsplit] at hroom ⊢
    obtain ⟨s₁, e₁, p₁, hbyte, hdecoded⟩ | ⟨b, s₁, hbyte, htaken, hwritten, hinvalid⟩ := pushByte_decodes byte h hone
    · rw [pushEach_cons_ok hbyte]
      obtain hok | ⟨b, s', herror, hrefused⟩ := ih hdecoded hroom
      · exact .inl hok
      · refine .inr ⟨b, s', herror, ?_⟩
        obtain ⟨done, byte', rest, rfl, hrest⟩ := hrefused
        refine ⟨byte :: done, byte', rest, rfl, ?_⟩
        rwa [List.append_cons stream byte done]
    · refine .inr ⟨b, s₁, ?_, [], byte, bytes, rfl, ?_, ⟨e, ?_, hwritten⟩, ?_⟩
      · rw [pushEach]
        exact Fallible.bind_error hbyte
      · rw [htaken, List.append_nil]
      · rw [List.append_nil]
        exact h.longest
      · rwa [List.append_nil]

theorem pushEach_append : ∀ bytes bytes' : List UInt8,
    pushEach sink (bytes ++ bytes') = pushEach sink bytes >>= fun _ => pushEach sink bytes'
  | [], bytes' => by
    funext s
    exact (Fallible.bind_ok rfl).symm
  | byte :: bytes, bytes' => by
    rw [List.cons_append, pushEach, pushEach, pushEach_append, Fallible.bind_assoc]
    refine congrArg _ (funext fun _ => ?_)
    rw [Fallible.bind_assoc]

/-- With room for its bytes, a push is its loop. -/
theorem pushBytes_eq (h : Decoded sink start stream e p s)
    (hroom : (stream ++ bytes).length ≤ sink.remainingCapacity start) : pushBytes sink bytes s = pushEach sink bytes s := by
  have hcheck : checkRoom sink bytes s = .ok () := by
    refine Except.failIf_eq_ok.mpr (not_lt.mpr ?_)
    rw [List.length_append] at hroom
    rw [h.pending.length]
    exact (min_le_right _ _).trans (h.room_left hroom)
  have hpass : Fallible.check (checkRoom sink bytes) s = (.ok (), s) := by rw [Fallible.check, hcheck]
  rw [pushBytes, Fallible.bind_ok hpass, Fallible.bind_ok (flushComplete_pending h.pending)]

/-- Where a stream is cut makes no difference. -/
theorem pushAll_eq {chunks : List (List UInt8)} (h : Decoded sink start stream e p s)
    (hroom : (stream ++ chunks.flatten).length ≤ sink.remainingCapacity start) :
    pushAll sink chunks s = pushEach sink chunks.flatten s := by
  induction chunks generalizing stream e p s with
  | nil => rfl
  | cons chunk chunks ih =>
    rw [List.flatten_cons, ← List.append_assoc] at hroom
    have hchunk : (stream ++ chunk).length ≤ sink.remainingCapacity start := by
      rw [List.length_append] at hroom
      omega
    rw [pushAll, List.flatten_cons, pushEach_append]
    obtain ⟨s', e', p', hok, hdecoded⟩ | ⟨b, s', herror, -⟩ := pushEach_decodes h hchunk
    · rw [Fallible.bind_ok (f := fun _ => pushEach sink chunks.flatten) hok, ← ih hdecoded hroom]
      exact Fallible.bind_ok ((pushBytes_eq h hchunk).trans hok)
    · rw [Fallible.bind_error (f := fun _ => pushEach sink chunks.flatten) herror]
      exact Fallible.bind_error ((pushBytes_eq h hchunk).trans herror)

/-! ### Capacity -/

/-- The sink has room for the bytes that are kept, and `k` more. -/
def SpareRoom (sink : TextSink S) (k : ℕ) (s : Decoding S) : Prop :=
  s.decoder.pendingLength.toNat + k ≤ sink.remainingCapacity s.output

def NotCapacity (e : TokenizationError) (_ : Decoding S) : Prop := ∀ c, e ≠ .capacityExhausted c

theorem flushComplete_room (k : ℕ) :
    Ensures (SpareRoom sink k) (flushComplete sink) (fun _ => SpareRoom sink k) NotCapacity := by
  have hall : ∀ s, SpareRoom sink k s → ∀ result s', flushComplete sink s = (result, s') →
      (∀ u, result = .ok u → SpareRoom sink k s') ∧ ∀ e, result = .error e → NotCapacity e s' := by
    intro s hroom result s' h
    unfold flushComplete at h
    split_ifs at h with hwait
    · obtain ⟨rfl, rfl⟩ := Prod.mk.inj h
      exact ⟨fun _ _ => hroom, nofun⟩
    dsimp only at h
    split_ifs at h with hlong
    · obtain ⟨rfl, rfl⟩ := Prod.mk.inj h
      refine ⟨nofun, fun e he c hc => ?_⟩
      cases he.trans (congrArg _ hc)
    obtain ⟨-, heq⟩ := not_or.mp hwait
    have hlength : (s.decoder.pending.toList.take s.decoder.expectedLength.toNat).length =
        s.decoder.pendingLength.toNat := by
      rw [List.length_take, Vector.length_toList, min_eq_left (not_lt.mp hlong), not_not.mp heq]
    split at h
    · obtain ⟨rfl, rfl⟩ := Prod.mk.inj h
      refine ⟨nofun, fun e he c hc => ?_⟩
      cases he.trans (congrArg _ hc)
    · next text htext =>
      rw [← fromUtf8_eq_some.mp htext] at hlength
      have hfits : (utf8 text).length ≤ sink.remainingCapacity s.output := by
        rw [hlength]
        exact (Nat.le_add_right _ _).trans hroom
      obtain ⟨hok, -, hcapacity⟩ := sink.push_fits hfits
      rcases hpush : sink.pushStr s.output text with ⟨outcome, output⟩
      rw [hpush] at h hok hcapacity
      obtain rfl : outcome = .ok () := hok
      obtain ⟨rfl, rfl⟩ := Prod.mk.inj h
      refine ⟨fun _ _ => ?_, nofun⟩
      unfold SpareRoom at hroom ⊢
      change 0 + k ≤ sink.remainingCapacity output
      dsimp only at hcapacity
      omega
  exact ⟨fun hs h => (hall _ hs _ _ h).1 _ rfl, fun hs h => (hall _ hs _ _ h).2 _ rfl⟩

theorem u8SaturatingSucc_le (n : UInt8) : (u8SaturatingSucc n).toNat ≤ n.toNat + 1 := by
  unfold u8SaturatingSucc
  split_ifs with h
  · rw [h]
    decide
  · rw [UInt8.toNat_add]
    exact Nat.mod_le _ _

theorem pushByte_room (k : ℕ) (byte : UInt8) :
    Ensures (SpareRoom sink (k + 1)) (pushByte sink byte) (fun _ => SpareRoom sink k) NotCapacity := by
  have hinvalid : ∀ (b : UInt8) (s' : Decoding S), NotCapacity (.invalidUtf8 b) s' :=
    fun _ _ _ he => by cases he
  have hall : ∀ s, SpareRoom sink (k + 1) s → ∀ result s', pushByte sink byte s = (result, s') →
      (∀ u, result = .ok u → SpareRoom sink k s') ∧ ∀ e, result = .error e → NotCapacity e s' := by
    intro s hroom result s' h
    -- What a handed-on character needs is room for what is kept.
    have hflush : ∀ d : IncrementalUtf8Decoder, d.pendingLength.toNat ≤ s.decoder.pendingLength.toNat + 1 →
        flushComplete sink { s with decoder := d } = (result, s') →
          (∀ u, result = .ok u → SpareRoom sink k s') ∧ ∀ e, result = .error e → NotCapacity e s' := by
      intro d hd hflush
      have hspare : SpareRoom sink k { s with decoder := d } := by
        unfold SpareRoom at hroom ⊢
        dsimp only
        omega
      constructor
      · rintro u rfl
        exact (flushComplete_room k).ok hspare hflush
      · rintro e rfl
        exact (flushComplete_room k).error hspare hflush
    have hkept : ∀ d : IncrementalUtf8Decoder, d.pendingLength.toNat ≤ s.decoder.pendingLength.toNat + 1 →
        SpareRoom sink k { s with decoder := d } := by
      intro d hd
      unfold SpareRoom at hroom ⊢
      dsimp only
      omega
    unfold pushByte at h
    split_ifs at h with hempty hascii hcontinuation hfull
    · refine hflush _ ?_ h
      exact Nat.le_add_left 1 _
    · split at h
      · obtain ⟨rfl, rfl⟩ := Prod.mk.inj h
        refine ⟨fun _ he => (by cases he), fun e he => ?_⟩
        cases he
        exact hinvalid _ _
      · obtain ⟨rfl, rfl⟩ := Prod.mk.inj h
        exact ⟨fun _ _ => hkept _ (Nat.le_add_left 1 _), fun _ he => by cases he⟩
    · obtain ⟨rfl, rfl⟩ := Prod.mk.inj h
      refine ⟨fun _ he => (by cases he), fun e he => ?_⟩
      cases he
      exact hinvalid _ _
    · dsimp only at h
      split_ifs at h with hexpected
      · obtain ⟨rfl, rfl⟩ := Prod.mk.inj h
        exact ⟨fun _ _ => hkept _ (u8SaturatingSucc_le _), fun _ he => by cases he⟩
      · exact hflush _ (u8SaturatingSucc_le _) h
    · obtain ⟨rfl, rfl⟩ := Prod.mk.inj h
      refine ⟨fun _ he => (by cases he), fun e he => ?_⟩
      cases he
      exact hinvalid _ _
  exact ⟨fun hs h => (hall _ hs _ _ h).1 _ rfl, fun hs h => (hall _ hs _ _ h).2 _ rfl⟩

theorem pushEach_room : ∀ bytes : List UInt8,
    Ensures (SpareRoom sink bytes.length) (pushEach sink bytes) (fun _ _ => True) NotCapacity
  | [] => Ensures.pure fun _ _ => trivial
  | byte :: bytes => by
    refine Ensures.bind (pushByte_room bytes.length byte) fun _ => ?_
    exact Ensures.bind (Ensures.update fun _ hroom => hroom) fun _ => pushEach_room bytes

/-- A push whose bytes have room does not fail over capacity. -/
theorem pushBytes_room (bytes : List UInt8) :
    Ensures (SpareRoom sink bytes.length) (pushBytes sink bytes) (fun _ _ => True) NotCapacity := by
  refine Ensures.bind (Q := fun _ => SpareRoom sink bytes.length) ?_ fun _ => ?_
  · refine Ensures.check (fun _ _ hroom _ => hroom) fun s e hroom hcheck => ?_
    obtain ⟨hlt, -⟩ := Except.failIf_eq_error.mp hcheck
    exact absurd hlt (not_lt.mpr ((min_le_right _ _).trans hroom))
  · exact Ensures.bind (flushComplete_room bytes.length) fun _ => pushEach_room bytes

/-- A push whose bytes have no room fails before it takes one. -/
theorem pushBytes_rejected {s : Decoding S} {bytes : List UInt8} (hmax : sink.remainingCapacity s.output < u64Max)
    (h : sink.remainingCapacity s.output < s.decoder.pendingLength.toNat + bytes.length) :
    pushBytes sink bytes s = (.error (.capacityExhausted ⟨.decodeBytes,
      saturatingAdd u64Max s.decoder.pendingLength.toNat bytes.length, sink.remainingCapacity s.output⟩), s) := by
  have hcheck : checkRoom sink bytes s = .error (.capacityExhausted ⟨.decodeBytes,
      saturatingAdd u64Max s.decoder.pendingLength.toNat bytes.length, sink.remainingCapacity s.output⟩) :=
    Except.failIf_eq_error.mpr ⟨lt_min hmax h, rfl⟩
  have hfail : Fallible.check (checkRoom sink bytes) s = (.error (.capacityExhausted ⟨.decodeBytes,
      saturatingAdd u64Max s.decoder.pendingLength.toNat bytes.length, sink.remainingCapacity s.output⟩), s) := by
    rw [Fallible.check, hcheck]
  exact Fallible.bind_error hfail

/-! ### Whole streams -/

section Streams

variable {chunks : List (List UInt8)}

theorem decodeStream_eq (hroom : chunks.flatten.length ≤ sink.remainingCapacity start) :
    decodeStream sink chunks ⟨.new, start, 0⟩ =
      (pushEach sink chunks.flatten >>= fun _ => Fallible.check fun s => s.decoder.finish) ⟨.new, start, 0⟩ := by
  have hpush : pushAll sink chunks ⟨.new, start, 0⟩ = pushEach sink chunks.flatten ⟨.new, start, 0⟩ :=
    pushAll_eq (decoded_new start) hroom
  rcases h : pushEach sink chunks.flatten ⟨.new, start, 0⟩ with ⟨result, s⟩
  rw [decodeStream]
  cases result with
  | error e => rw [Fallible.bind_error h, Fallible.bind_error (hpush.trans h)]
  | ok u => rw [Fallible.bind_ok h, Fallible.bind_ok (hpush.trans h)]

/-- A stream is decoded to its end when it is valid, and else it is refused at a byte or at its end. -/
theorem decodeStream_cases (hroom : chunks.flatten.length ≤ sink.remainingCapacity start) :
    (∃ s, decodeStream sink chunks ⟨.new, start, 0⟩ = (.ok (), s) ∧
      Decoded sink start chunks.flatten chunks.flatten [] s) ∨
    (∃ error s, decodeStream sink chunks ⟨.new, start, 0⟩ = (.error error, s) ∧ ¬ValidUtf8 chunks.flatten ∧
      s.taken ≤ chunks.flatten.length ∧
        ∃ e, LongestValid e (chunks.flatten.take s.taken) ∧ sink.written s.output = sink.written start ++ e) := by
  rw [decodeStream_eq hroom]
  obtain ⟨s, e, p, hok, hdecoded⟩ | ⟨b, s, herror, done, byte, rest, hsplit, htaken, htext, hinvalid⟩ :=
    pushEach_decodes (decoded_new start) hroom
  · rw [Fallible.bind_ok hok]
    rw [List.nil_append] at hdecoded
    by_cases hnil : p = []
    · subst hnil
      have hfinish : s.decoder.finish = .ok () :=
        Except.failIf_eq_ok.mpr (not_not.mpr (hdecoded.pending.length_eq_zero_iff.mpr rfl))
      have hwhole : chunks.flatten = e := by rw [hdecoded.split, List.append_nil]
      refine .inl ⟨s, by rw [Fallible.check, hfinish], ?_⟩
      rw [hwhole]
      rwa [hwhole] at hdecoded
    · have hunfinished := hdecoded.pending.eq_nil_or.resolve_left hnil
      have hfinish : s.decoder.finish = .error (.incompleteUtf8 s.decoder.pendingLength.toNat) :=
        Except.failIf_eq_error.mpr ⟨fun hzero => hnil (hdecoded.pending.length_eq_zero_iff.mp hzero), rfl⟩
      refine .inr ⟨_, s, by rw [Fallible.check, hfinish], ?_, hdecoded.taken.le, e, ?_, hdecoded.written⟩
      · rw [hdecoded.split]
        exact hunfinished.not_valid hdecoded.valid
      · rw [hdecoded.taken, List.take_length]
        exact hdecoded.longest
  · refine .inr ⟨_, s, Fallible.bind_error herror, ?_, ?_, ?_⟩
    · rw [hsplit]
      exact hinvalid rest
    · rw [htaken, hsplit, List.nil_append, List.length_append]
      exact Nat.le_add_right _ _
    · rwa [htaken, hsplit, List.nil_append, List.take_left]

/-- The text at any point of a push: after the chunks before it, and its first bytes. -/
theorem decoded_at {before : List (List UInt8)} {first : List UInt8} {s : Decoding S}
    (hroom : (before.flatten ++ first).length ≤ sink.remainingCapacity start)
    (h : (do pushAll sink before; flushComplete sink; pushEach sink first) (⟨.new, start, 0⟩ : Decoding S) = (.ok (), s)) :
    ∃ e p, Decoded sink start (before.flatten ++ first) e p s := by
  have hbefore : before.flatten.length ≤ sink.remainingCapacity start := by
    rw [List.length_append] at hroom
    omega
  have hpush : pushAll sink before ⟨.new, start, 0⟩ = pushEach sink before.flatten ⟨.new, start, 0⟩ :=
    pushAll_eq (decoded_new start) hbefore
  obtain ⟨s₁, e₁, p₁, hok, hdecoded⟩ | ⟨b, s₁, herror, -⟩ := pushEach_decodes (decoded_new start) hbefore
  · rw [Fallible.bind_ok (hpush.trans hok), Fallible.bind_ok (flushComplete_pending hdecoded.pending)] at h
    rw [List.nil_append] at hdecoded
    obtain ⟨s₂, e₂, p₂, hok₂, hdecoded₂⟩ | ⟨b, s₂, herror, -⟩ := pushEach_decodes hdecoded hroom
    · obtain ⟨-, rfl⟩ := Prod.mk.inj (hok₂.symm.trans h)
      exact ⟨e₂, p₂, hdecoded₂⟩
    · cases (congrArg Prod.fst herror).symm.trans (congrArg Prod.fst h)
  · rw [Fallible.bind_error (hpush.trans herror)] at h
    cases congrArg Prod.fst h

end Streams

/-- Decoding a stream with enough room in the sink succeeds when the stream is valid, and then writes
it. What is written is at every point the longest valid start of what was taken, with fewer than four
bytes kept; where the stream is cut changes neither the result nor where it comes to it. A push for
which a buffer has no room changes nothing, and one for which it has room does not fail over it. -/
theorem decoding_exact :
    (∀ (S : Type) (sink : TextSink S) (start : S) (chunks : List (List UInt8)),
      chunks.flatten.length ≤ sink.remainingCapacity start →
        ((∃ s, decodeStream sink chunks ⟨.new, start, 0⟩ = (.ok (), s)) ↔ ValidUtf8 chunks.flatten) ∧
        (∀ s, decodeStream sink chunks ⟨.new, start, 0⟩ = (.ok (), s) →
          sink.written s.output = sink.written start ++ chunks.flatten) ∧
        (∀ before first last after, chunks = before ++ (first ++ last) :: after → ∀ s : Decoding S,
          (do pushAll sink before; flushComplete sink; pushEach sink first) ⟨.new, start, 0⟩ = (.ok (), s) →
            s.decoder.pendingLength.toNat < 4 ∧
              ∃ e, LongestValid e (before.flatten ++ first) ∧ sink.written s.output = sink.written start ++ e) ∧
        (∀ error s, decodeStream sink chunks ⟨.new, start, 0⟩ = (.error error, s) → s.taken ≤ chunks.flatten.length ∧
          ∃ e, LongestValid e (chunks.flatten.take s.taken) ∧ sink.written s.output = sink.written start ++ e) ∧
        ∀ chunks', chunks'.flatten = chunks.flatten →
          decodeStream sink chunks' ⟨.new, start, 0⟩ = decodeStream sink chunks ⟨.new, start, 0⟩) ∧
    ∀ (s : Decoding TextBuffer) (bytes : List UInt8),
      (s.output.remainingCapacity < s.decoder.pendingLength.toNat + bytes.length →
        pushBytes textBuffer bytes s = (.error (.capacityExhausted ⟨.decodeBytes,
          saturatingAdd u64Max s.decoder.pendingLength.toNat bytes.length, s.output.remainingCapacity⟩), s)) ∧
      (s.decoder.pendingLength.toNat + bytes.length ≤ s.output.remainingCapacity →
        ∀ c s', pushBytes textBuffer bytes s ≠ (.error (.capacityExhausted c), s')) := by
  refine ⟨fun S sink start chunks hroom => ⟨?_, ?_, ?_, ?_, ?_⟩, fun s bytes => ⟨fun h => ?_, fun h c s' heq => ?_⟩⟩
  · obtain ⟨s, hok, hdecoded⟩ | ⟨error, s, herror, hinvalid, -⟩ := decodeStream_cases hroom
    · exact ⟨fun _ => hdecoded.valid, fun _ => ⟨s, hok⟩⟩
    · refine ⟨fun ⟨s', hok⟩ => ?_, fun hvalid => absurd hvalid hinvalid⟩
      cases congrArg Prod.fst (herror.symm.trans hok)
  · intro s h
    obtain ⟨s', hok, hdecoded⟩ | ⟨error, s', herror, -⟩ := decodeStream_cases hroom
    · obtain ⟨-, rfl⟩ := Prod.mk.inj (hok.symm.trans h)
      exact hdecoded.written
    · cases congrArg Prod.fst (herror.symm.trans h)
  · rintro before first last after rfl s h
    have hpart : (before.flatten ++ first).length ≤ sink.remainingCapacity start := by
      simp only [List.flatten_append, List.flatten_cons, List.length_append] at hroom ⊢
      omega
    obtain ⟨e, p, hdecoded⟩ := decoded_at hpart h
    refine ⟨?_, e, hdecoded.longest, hdecoded.written⟩
    rw [hdecoded.pending.length]
    exact hdecoded.pending.length_lt
  · intro error s h
    obtain ⟨s', hok, -⟩ | ⟨error', s', herror, -, hle, htext⟩ := decodeStream_cases hroom
    · cases congrArg Prod.fst (hok.symm.trans h)
    · obtain ⟨-, rfl⟩ := Prod.mk.inj (herror.symm.trans h)
      exact ⟨hle, htext⟩
  · intro chunks' hflatten
    rw [decodeStream_eq hroom, decodeStream_eq (hflatten ▸ hroom), hflatten]
  · refine pushBytes_rejected ?_ h
    have hsize : s.output.remainingCapacity ≤ isizeMax := (Nat.sub_le _ _).trans s.output.2.2
    exact hsize.trans_lt (by decide)
  · have hspare : SpareRoom textBuffer bytes.length s := h
    exact (pushBytes_room bytes).error hspare heq c rfl

/-- A character of four bytes that is cut in the middle. -/
theorem decoding_exact_crosses_chunks : ∃ s, decodeStream textBuffer [[0xF0, 0x9F], [0xA6, 0x80]]
    ⟨.new, ⟨⟨List.replicate 8 0, 0⟩, by decide⟩, 0⟩ = (.ok (), s) :=
  (decoding_exact.1 TextBuffer textBuffer _ _ (by decide)).1.mpr ⟨"🦀", by decide⟩

end LlmApp
