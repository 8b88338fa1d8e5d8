/-
Where reading fails.

A reader fails at a place: there are too few bytes left, or the bytes there are
no field element, no code of a kind, or no switch.  Whatever it does, it does not
look behind the bytes that it takes.

* `Cursor.Fault` — what is wrong with the bytes at a cursor;
* `DecodeError.Lasting` — the errors that more bytes do not mend;
* `Reader.Steady` — a reader takes the bytes that it takes whatever follows them,
  fails only where there is a fault, and fails again with a lasting error when
  more bytes follow;
* `Reader.SteadyAt.bind`, `Reader.SteadyAt.check`, `Reader.Steady.times` — readers
  put together from steady ones are steady;
* `Reader.Steady.truncated_of_cut` — a steady reader that is given only a part of
  the bytes that it takes fails because they are too few.

Design notes: the last statement needs no second look at the readers.  On the
part, success would leave bytes over that the whole does not, and a lasting error
would be met on the whole as well.
-/
import ShieldedWallet.Proofs.Wire

namespace ShieldedWallet

/-! ### Faults -/

namespace Cursor

/-- The cursor with more bytes behind those left. -/
def extend (c : Cursor) (more : Bytes) : Cursor := ⟨c.offset, c.rest ++ more⟩

/-- What is wrong with the bytes at a cursor. -/
inductive Fault (c : Cursor) : DecodeError → Prop
  | truncated {needed} (hfew : c.rest.length < needed) : Fault c (.truncated c.offset needed)
  | nonCanonicalField {b : FixedBytes 32} {rest} (hrest : c.rest = b.toList ++ rest)
      (hlarge : fieldOrder ≤ b.toNatBE) : Fault c (.nonCanonicalField c.offset)
  | unknownOutflowKind {code rest} (hrest : c.rest = code :: rest) (hcode : 2 < code.toNat) :
      Fault c (.unknownOutflowKind c.offset code)
  | unknownSwitchBits {switch rest} (hrest : c.rest = switch :: rest)
      (hbits : ¬ Transaction.IsSwitch switch) : Fault c (.unknownSwitchBits switch)

/-- The bytes end at the same place, from wherever they are looked at. -/
theorem Spans.end_eq {c c' : Cursor} {bs : Bytes} (h : c.Spans bs c') :
    c.offset + c.rest.length = c'.offset + c'.rest.length := by
  rw [h.rest_eq, h.offset_eq, List.length_append, Nat.add_assoc]

end Cursor

/-- Errors that more bytes do not mend. -/
inductive DecodeError.Lasting : DecodeError → Prop
  | nonCanonicalField (offset : Nat) : Lasting (.nonCanonicalField offset)
  | unknownOutflowKind (offset : Nat) (code : UInt8) : Lasting (.unknownOutflowKind offset code)
  | unknownSwitchBits (switch : UInt8) : Lasting (.unknownSwitchBits switch)

/-- A fault is that bytes are missing, or it lasts. -/
theorem Cursor.Fault.truncated_or_lasting {c : Cursor} {e : DecodeError} (h : c.Fault e) :
    (∃ needed, e = .truncated c.offset needed ∧ c.rest.length < needed) ∨ e.Lasting := by
  cases h with
  | truncated hfew => exact .inl ⟨_, rfl, hfew⟩
  | nonCanonicalField => exact .inr (.nonCanonicalField _)
  | unknownOutflowKind => exact .inr (.unknownOutflowKind _ _)
  | unknownSwitchBits => exact .inr (.unknownSwitchBits _)

/-! ### Steady readers -/

namespace Reader

variable {α β : Type}

theorem bind_eq_error_iff {r : Reader α} {f : α → Reader β} {c : Cursor} {e : DecodeError} :
    (r >>= f) c = .error e ↔ r c = .error e ∨ ∃ a m, r c = .ok (a, m) ∧ f a m = .error e := by
  rw [show (r >>= f) c = r c >>= fun p => f p.1 p.2 from rfl, Except.bind_eq_error_iff]
  refine or_congr_right ⟨?_, ?_⟩
  · rintro ⟨⟨a, m⟩, hr, hf⟩
    exact ⟨a, m, hr, hf⟩
  · rintro ⟨a, m, hr, hf⟩
    exact ⟨(a, m), hr, hf⟩

/-- At a cursor the reader depends on the bytes that it takes only, fails only where there is a
fault, and fails with a lasting error whatever follows. -/
structure SteadyAt (r : Reader α) (c : Cursor) : Prop where
  of_ok : ∀ {a c'}, r c = .ok (a, c') →
    ∃ bs, c.Spans bs c' ∧ ∀ rest, r ⟨c.offset, bs ++ rest⟩ = .ok (a, ⟨c'.offset, rest⟩)
  of_error : ∀ {e}, r c = .error e →
    ∃ bs m, c.Spans bs m ∧ m.Fault e ∧ (e.Lasting → ∀ more, r (c.extend more) = .error e)

/-- The reader is steady wherever it starts. -/
def Steady (r : Reader α) : Prop := ∀ c, r.SteadyAt c

section Closure

variable {r : Reader α} {f : α → Reader β} {c c' : Cursor} {a : α} {e : DecodeError}

/-- What a steady reader reads it reads also with more bytes behind. -/
theorem SteadyAt.extend_ok (hr : r.SteadyAt c) (h : r c = .ok (a, c')) (more : Bytes) :
    r (c.extend more) = .ok (a, c'.extend more) := by
  obtain ⟨bs, hspan, hrest⟩ := hr.of_ok h
  have := hrest (c'.rest ++ more)
  rwa [← List.append_assoc, ← hspan.rest_eq] at this

theorem steady_pure (a : α) : (pure a : Reader α).Steady := by
  intro c
  refine ⟨?_, ?_⟩
  · intro a' c' h
    obtain ⟨rfl, rfl⟩ := pure_eq_ok_iff.mp h
    exact ⟨[], Cursor.spans_nil_iff.mpr rfl, fun rest => rfl⟩
  · intro e h
    cases h

/-- Where the first step fails, the chain fails for the same fault. -/
theorem SteadyAt.error_bind (hr : r.SteadyAt c) (h : r c = .error e) :
    ∃ bs m, c.Spans bs m ∧ m.Fault e ∧
      (e.Lasting → ∀ more, (r >>= f) (c.extend more) = .error e) := by
  obtain ⟨bs, m, hspan, hfault, hlast⟩ := hr.of_error h
  exact ⟨bs, m, hspan, hfault, fun hl more => bind_eq_error_iff.mpr (.inl (hlast hl more))⟩

theorem SteadyAt.bind (hr : r.SteadyAt c) (hf : ∀ a m, (f a).SteadyAt m) :
    (r >>= f).SteadyAt c := by
  refine ⟨?_, ?_⟩
  · intro b c' h
    obtain ⟨a, m, hra, hfb⟩ := bind_eq_ok_iff.mp h
    obtain ⟨bs, hspan, hrest⟩ := hr.of_ok hra
    obtain ⟨bs', hspan', hrest'⟩ := (hf a m).of_ok hfb
    refine ⟨bs ++ bs', Cursor.spans_append_iff.mpr ⟨m, hspan, hspan'⟩, fun rest => ?_⟩
    rw [List.append_assoc]
    exact bind_eq_ok_iff.mpr ⟨a, _, hrest _, hrest' rest⟩
  · intro e h
    rcases bind_eq_error_iff.mp h with hre | ⟨a, m, hra, hfe⟩
    · exact hr.error_bind hre
    · obtain ⟨bs, hspan, -⟩ := hr.of_ok hra
      obtain ⟨bs', m', hspan', hfault, hlast⟩ := (hf a m).of_error hfe
      refine ⟨bs ++ bs', m', Cursor.spans_append_iff.mpr ⟨m, hspan, hspan'⟩, hfault, ?_⟩
      intro hl more
      exact bind_eq_error_iff.mpr (.inr ⟨a, m.extend more, hr.extend_ok hra more, hlast hl more⟩)

/-- What was read may be refused, if there is a fault where it was read from. -/
theorem SteadyAt.check (hr : r.SteadyAt c)
    (hf : ∀ a m, r c = .ok (a, m) → (∃ b, f a = pure b) ∨ ∃ e, f a = throw e ∧ c.Fault e) :
    (r >>= f).SteadyAt c := by
  refine ⟨?_, ?_⟩
  · intro b c' h
    obtain ⟨a, m, hra, hfb⟩ := bind_eq_ok_iff.mp h
    rcases hf a m hra with ⟨b', hpure⟩ | ⟨e, hthrow, -⟩
    · rw [hpure] at hfb
      obtain ⟨rfl, rfl⟩ := pure_eq_ok_iff.mp hfb
      obtain ⟨bs, hspan, hrest⟩ := hr.of_ok hra
      refine ⟨bs, hspan, fun rest => bind_eq_ok_iff.mpr ⟨a, _, hrest rest, ?_⟩⟩
      rw [hpure]
      rfl
    · rw [hthrow] at hfb
      exact absurd hfb throw_ne_ok
  · intro e h
    rcases bind_eq_error_iff.mp h with hre | ⟨a, m, hra, hfe⟩
    · exact hr.error_bind hre
    · rcases hf a m hra with ⟨b, hpure⟩ | ⟨e', hthrow, hfault⟩
      · rw [hpure] at hfe
        cases hfe
      · rw [hthrow] at hfe
        cases hfe
        -- the fault lies where the bytes were taken from, and they are taken again
        refine ⟨[], c, Cursor.spans_nil_iff.mpr rfl, hfault, fun _ more => ?_⟩
        refine bind_eq_error_iff.mpr (.inr ⟨a, m.extend more, hr.extend_ok hra more, ?_⟩)
        rw [hthrow]
        rfl

theorem Steady.bind (hr : r.Steady) (hf : ∀ a, (f a).Steady) : (r >>= f).Steady :=
  fun c => (hr c).bind fun a m => hf a m

/-- A reader may look at its place before it reads. -/
theorem SteadyAt.offset {f : Nat → Reader β} (hf : (f c.offset).SteadyAt c) :
    (Reader.offset >>= f).SteadyAt c :=
  ⟨fun h => hf.of_ok h, fun h => hf.of_error h⟩

theorem Steady.times (hr : r.Steady) (n : Nat) : (times r n).Steady := by
  induction n with
  | zero => exact steady_pure []
  | succ n ih => exact hr.bind fun a => ih.bind fun as => steady_pure (a :: as)

end Closure

/-! ### Readers of one field -/

/-- A reader whose values and bytes are known is steady if its errors are. -/
theorem Reads.steadyAt {r : Reader α} {Valid : α → Prop} {encode : α → Bytes}
    (hr : r.Reads Valid encode) {c : Cursor}
    (herror : ∀ {e}, r c = .error e →
      ∃ bs m, c.Spans bs m ∧ m.Fault e ∧ (e.Lasting → ∀ more, r (c.extend more) = .error e)) :
    r.SteadyAt c := by
  refine ⟨fun {a c'} h => ?_, herror⟩
  obtain ⟨ha, hspan⟩ := hr.eq_ok_iff.mp h
  exact ⟨encode a, hspan, fun rest => hr.eq_ok_iff.mpr ⟨ha, rfl, hspan.offset_eq⟩⟩

theorem bytes_eq_error {n : Nat} {c : Cursor} {e : DecodeError} (h : bytes n c = .error e) :
    e = .truncated c.offset n ∧ c.rest.length < n := by
  unfold bytes at h
  split at h
  case h_1 => cases h
  case h_2 hnone =>
    cases h
    refine ⟨rfl, Nat.lt_of_not_le fun hle => ?_⟩
    have hlen : (c.rest.take n).length = n := List.length_take_of_le hle
    have hsome : FixedBytes.ofList? n (c.rest.take n) = some ⟨c.rest.take n, hlen⟩ :=
      FixedBytes.ofList?_eq_some_iff.mpr rfl
    rw [hsome] at hnone
    cases hnone

theorem steady_bytes (n : Nat) : (bytes n).Steady := by
  intro c
  refine (reads_bytes n).steadyAt fun {e} h => ?_
  obtain ⟨rfl, hfew⟩ := bytes_eq_error h
  exact ⟨[], c, Cursor.spans_nil_iff.mpr rfl, .truncated hfew, fun hl => nomatch hl⟩

theorem steady_byte : byte.Steady := (steady_bytes 1).bind fun _ => steady_pure _

theorem steady_short : short.Steady := (steady_bytes 2).bind fun _ => steady_pure _

theorem steady_amount : amount.Steady := (steady_bytes 32).bind fun _ => steady_pure _

theorem steady_address : address.Steady := (steady_bytes 20).bind fun _ => steady_pure _

theorem steady_felt : felt.Steady := by
  intro c
  refine .offset ((steady_bytes 32 c).check fun b m hb => ?_)
  have hspan := ((reads_bytes 32).eq_ok_iff.mp hb).2
  cases hres : Felt.ofBytesBE? b with
  | some a => exact .inl ⟨a, rfl⟩
  | none =>
    have hlarge : fieldOrder ≤ b.toNatBE :=
      Felt.ofResidue?_eq_none_iff.mp ((Felt.ofBytesBE?_eq b).symm.trans hres)
    exact .inr ⟨_, rfl, .nonCanonicalField hspan.rest_eq hlarge⟩

/-! ### Parts of what is taken -/

/-- From a proper part of the bytes that it takes a steady reader reads nothing: there are too few
bytes left at some place of the part, which is reported. -/
theorem Steady.truncated_of_cut {r : Reader α} (hr : r.Steady) {c c' : Cursor} {a : α} {bs : Bytes}
    {k : Nat} (h : r c = .ok (a, c')) (hspan : c.Spans bs c') (hk : k < bs.length) :
    ∃ offset needed, r ⟨c.offset, bs.take k⟩ = .error (.truncated offset needed) ∧
      offset ≤ c.offset + k ∧ c.offset + k < offset + needed := by
  have hwhole : Cursor.extend ⟨c.offset, bs.take k⟩ (bs.drop k ++ c'.rest) = c := by
    show (⟨c.offset, bs.take k ++ (bs.drop k ++ c'.rest)⟩ : Cursor) = c
    rw [← List.append_assoc, List.take_append_drop, ← hspan.rest_eq]
  have hlen : (bs.take k).length = k := List.length_take_of_le (Nat.le_of_lt hk)
  cases hpart : r ⟨c.offset, bs.take k⟩ with
  | ok p =>
    obtain ⟨a', m⟩ := p
    -- the same would be read from the whole, with the bytes cut off left over
    have hext := (hr _).extend_ok hpart (bs.drop k ++ c'.rest)
    rw [hwhole, h] at hext
    have hcursor : c' = m.extend (bs.drop k ++ c'.rest) :=
      (Prod.mk.inj (Except.ok.inj hext)).2
    have hrest : c'.rest.length = m.rest.length + ((bs.length - k) + c'.rest.length) := by
      have := congrArg (fun m => m.rest.length) hcursor
      simpa only [Cursor.extend, List.length_append, List.length_drop] using this
    omega
  | error e =>
    obtain ⟨pre, m, hspan', hfault, hlast⟩ := (hr _).of_error hpart
    rcases hfault.truncated_or_lasting with ⟨needed, rfl, hfew⟩ | hlasting
    · have hend : c.offset + k = m.offset + m.rest.length := hlen ▸ hspan'.end_eq
      refine ⟨m.offset, needed, rfl, ?_, ?_⟩ <;> omega
    · have hext := hlast hlasting (bs.drop k ++ c'.rest)
      rw [hwhole, h] at hext
      cases hext

end Reader

end ShieldedWallet
