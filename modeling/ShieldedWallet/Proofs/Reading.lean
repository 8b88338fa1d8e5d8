/-
Readers and the bytes they take.

A reader that succeeds moves its cursor over some bytes.  For each reader one
equivalence says which values it gives, and that it gives a value from the
bytes that write it and from no others:

* `Cursor.Spans` — the bytes between two cursors;
* `Reader.Reads` — a reader gives exactly the valid values, each from the bytes
  that write it;
* `Reader.reads_felt`, `Reader.reads_amount`, ... — the readers of one field;
* `Reader.Reads.times` — a sequence of values is read from what they write one
  after the other.

Design notes: both directions of a format, that it can be read back and that it
has one spelling, are the two directions of the equivalence, so each reader is
opened once for both.
-/
import Mathlib.Algebra.Ring.Nat
import ShieldedWallet.Proofs.Outcome
import ShieldedWallet.Transaction.Reader

namespace ShieldedWallet

/-! ### Cursors -/

namespace Cursor

/-- The given bytes lie between two cursors. -/
structure Spans (c : Cursor) (bs : Bytes) (c' : Cursor) : Prop where
  rest_eq : c.rest = bs ++ c'.rest
  offset_eq : c'.offset = c.offset + bs.length

theorem spans_nil_iff {c c' : Cursor} : c.Spans [] c' ↔ c' = c := by
  obtain ⟨offset, rest⟩ := c
  obtain ⟨offset', rest'⟩ := c'
  constructor
  · rintro ⟨hrest, hoffset⟩
    have hrest : rest = rest' := hrest
    have hoffset : offset' = offset := hoffset
    rw [hrest, hoffset]
  · rintro ⟨⟩
    exact ⟨rfl, rfl⟩

/-- Bytes that lie between two cursors can be cut anywhere. -/
theorem spans_append_iff {c c' : Cursor} {xs ys : Bytes} :
    c.Spans (xs ++ ys) c' ↔ ∃ m, c.Spans xs m ∧ m.Spans ys c' := by
  constructor
  · rintro ⟨hrest, hoffset⟩
    rw [List.length_append, ← Nat.add_assoc] at hoffset
    rw [List.append_assoc] at hrest
    exact ⟨⟨c.offset + xs.length, ys ++ c'.rest⟩, ⟨hrest, rfl⟩, ⟨rfl, hoffset⟩⟩
  · rintro ⟨m, ⟨hrest, hoffset⟩, ⟨hrest', hoffset'⟩⟩
    refine ⟨?_, ?_⟩
    · rw [hrest, hrest', List.append_assoc]
    · rw [hoffset', hoffset, List.length_append, Nat.add_assoc]

end Cursor

/-! ### Fields in bytes -/

theorem FixedBytes.ofList?_eq_some_iff {n : Nat} {bs : Bytes} {b : FixedBytes n} :
    ofList? n bs = some b ↔ b.toList = bs := by
  constructor
  · exact ofList?_eq_some
  · rintro rfl
    exact ofList?_toList b

theorem FixedBytes.toNatBE_ofNatBE {n v : Nat} (h : v < 256 ^ n) : (ofNatBE n v).toNatBE = v := by
  rw [toNatBE, ofNatBE, Bytes.toNatBE_ofNatBE, Nat.mod_eq_of_lt h]

theorem FixedBytes.ofNatBE_toNatBE {n : Nat} (b : FixedBytes n) : ofNatBE n b.toNatBE = b := by
  obtain ⟨bs, rfl⟩ := b
  exact FixedBytes.ext (Bytes.ofNatBE_toNatBE bs)

/-- Bytes are read as a field element exactly if they are the ones that write it. -/
theorem Felt.ofBytesBE?_eq_some_iff {b : FixedBytes 32} {a : Felt} :
    ofBytesBE? b = some a ↔ b = a.toBytesBE := by
  rw [ofBytesBE?_eq, ofResidue?_eq_some_iff, toBytesBE]
  constructor
  · intro h
    rw [← h, FixedBytes.ofNatBE_toNatBE]
  · rintro rfl
    exact FixedBytes.toNatBE_ofNatBE (Nat.lt_trans a.isLt fieldOrder_lt_bytes)

theorem Amount.ofBytesBE_eq_iff {b : FixedBytes 32} {a : Amount} :
    ofBytesBE b = a ↔ b = a.toBytesBE := by
  constructor
  · rintro rfl
    exact (toBytesBE_ofBytesBE b).symm
  · rintro rfl
    exact ofBytesBE_toBytesBE a

theorem LedgerAddress.ofBytes_eq_iff {b : FixedBytes 20} {a : LedgerAddress} :
    ofBytes b = a ↔ b = a.toBytes := by
  constructor
  · rintro rfl
    exact (toBytes_ofBytes b).symm
  · rintro rfl
    exact ofBytes_toBytes a

/-! ### Readers -/

namespace Reader

variable {α β : Type}

theorem bind_eq_ok_iff {r : Reader α} {f : α → Reader β} {c c' : Cursor} {b : β} :
    (r >>= f) c = .ok (b, c') ↔ ∃ a m, r c = .ok (a, m) ∧ f a m = .ok (b, c') := by
  rw [show (r >>= f) c = r c >>= fun p => f p.1 p.2 from rfl, Except.bind_eq_ok_iff]
  constructor
  · rintro ⟨⟨a, m⟩, hr, hf⟩
    exact ⟨a, m, hr, hf⟩
  · rintro ⟨a, m, hr, hf⟩
    exact ⟨(a, m), hr, hf⟩

theorem pure_eq_ok_iff {a b : α} {c c' : Cursor} :
    (pure a : Reader α) c = .ok (b, c') ↔ b = a ∧ c' = c := by
  rw [show (pure a : Reader α) c = .ok (a, c) from rfl]
  constructor
  · rintro ⟨⟩
    exact ⟨rfl, rfl⟩
  · rintro ⟨rfl, rfl⟩
    rfl

theorem offset_bind {f : Nat → Reader α} {c : Cursor} : (offset >>= f) c = f c.offset c := rfl

theorem throw_ne_ok {e : DecodeError} {a : α} {c c' : Cursor} :
    (throw e : Reader α) c ≠ .ok (a, c') :=
  fun h => nomatch h

/-- Gives exactly the valid values, each from the bytes that write it and from no others. -/
def Reads (r : Reader α) (Valid : α → Prop) (encode : α → Bytes) : Prop :=
  ∀ c a c', r c = .ok (a, c') ↔ Valid a ∧ c.Spans (encode a) c'

namespace Reads

variable {r : Reader α} {Valid : α → Prop} {encode : α → Bytes}

theorem eq_ok_iff (hr : r.Reads Valid encode) {c c' : Cursor} {a : α} :
    r c = .ok (a, c') ↔ Valid a ∧ c.Spans (encode a) c' :=
  hr c a c'

/-- A reader of one type read as another, along two maps inverse to each other. -/
theorem map {g : α → β} (h : β → α) {Valid' : β → Prop} (hr : r.Reads Valid encode)
    (hgh : ∀ a b, Valid a ∧ g a = b ↔ Valid' b ∧ a = h b) :
    Reads (do let a ← r; return g a) Valid' (fun b => encode (h b)) := by
  intro c b c'
  rw [bind_eq_ok_iff]
  constructor
  · rintro ⟨a, m, hra, hpure⟩
    obtain ⟨rfl, rfl⟩ := pure_eq_ok_iff.mp hpure
    obtain ⟨ha, hspan⟩ := (hr c a c').mp hra
    obtain ⟨hb, hinv⟩ := (hgh a (g a)).mp ⟨ha, rfl⟩
    rw [hinv] at hspan
    exact ⟨hb, hspan⟩
  · rintro ⟨hb, hspan⟩
    obtain ⟨ha, hg⟩ := (hgh (h b) b).mpr ⟨hb, rfl⟩
    exact ⟨h b, c', (hr c _ c').mpr ⟨ha, hspan⟩, pure_eq_ok_iff.mpr ⟨hg.symm, rfl⟩⟩

/-- A sequence of values is read from what they write one after the other. -/
theorem times (hr : r.Reads Valid encode) (n : Nat) :
    Reads (times r n) (fun as => as.length = n ∧ ∀ a ∈ as, Valid a) (List.flatMap encode) := by
  induction n with
  | zero =>
    intro c as c'
    rw [Reader.times, pure_eq_ok_iff]
    constructor
    · rintro ⟨rfl, rfl⟩
      exact ⟨⟨rfl, by simp⟩, Cursor.spans_nil_iff.mpr rfl⟩
    · rintro ⟨⟨hlen, -⟩, hspan⟩
      obtain rfl := List.length_eq_zero_iff.mp hlen
      exact ⟨rfl, Cursor.spans_nil_iff.mp hspan⟩
  | succ n ih =>
    intro c as c'
    rw [Reader.times, bind_eq_ok_iff]
    constructor
    · rintro ⟨a, m, hra, hrest⟩
      obtain ⟨as, m', htimes, hpure⟩ := bind_eq_ok_iff.mp hrest
      obtain ⟨rfl, rfl⟩ := pure_eq_ok_iff.mp hpure
      obtain ⟨ha, hspan⟩ := (hr c a m).mp hra
      obtain ⟨⟨rfl, has⟩, hspans⟩ := (ih m as c').mp htimes
      refine ⟨⟨rfl, ?_⟩, ?_⟩
      · exact List.forall_mem_cons.mpr ⟨ha, has⟩
      · rw [List.flatMap_cons]
        exact Cursor.spans_append_iff.mpr ⟨m, hspan, hspans⟩
    · rintro ⟨⟨hlen, has⟩, hspan⟩
      -- the bytes are cut behind those of the first value
      obtain ⟨a, as, rfl⟩ := List.exists_cons_of_length_eq_add_one hlen
      obtain ⟨ha, has⟩ := List.forall_mem_cons.mp has
      rw [List.flatMap_cons] at hspan
      obtain ⟨m, hspan, hspans⟩ := Cursor.spans_append_iff.mp hspan
      refine ⟨a, m, (hr c a m).mpr ⟨ha, hspan⟩, bind_eq_ok_iff.mpr ⟨as, c', ?_, rfl⟩⟩
      exact (ih m as c').mpr ⟨⟨Nat.succ.inj hlen, has⟩, hspans⟩

end Reads

/-! ### Readers of one field -/

theorem reads_bytes (n : Nat) : Reads (bytes n) (fun _ => True) FixedBytes.toList := by
  intro c b c'
  rw [true_and]
  unfold bytes
  constructor
  · intro h
    split at h
    · rename_i b' hb'
      cases h
      have htake := FixedBytes.ofList?_eq_some_iff.mp hb'
      refine ⟨?_, ?_⟩
      · rw [htake, List.take_append_drop]
      · rw [b.length_eq]
    · cases h
  · rintro ⟨hrest, hoffset⟩
    have htake : FixedBytes.ofList? n (c.rest.take n) = some b := by
      rw [FixedBytes.ofList?_eq_some_iff, hrest, List.take_left' b.length_eq]
    have hcursor : (⟨c.offset + n, c.rest.drop n⟩ : Cursor) = c' := by
      rw [hrest, List.drop_left' b.length_eq, ← b.length_eq, ← hoffset]
    rw [htake]
    exact congrArg (fun m => Except.ok (b, m)) hcursor

theorem reads_byte : Reads byte (fun _ => True) (fun b => [b]) :=
  (reads_bytes 1).map (fun b : UInt8 => (⟨[b], rfl⟩ : FixedBytes 1)) fun a b => by
    obtain ⟨bs, hbs⟩ := a
    obtain ⟨x, rfl⟩ := List.length_eq_one_iff.mp hbs
    simp [FixedBytes.ext_iff]

theorem reads_amount : Reads amount (fun _ => True) (fun a => a.toBytesBE.toList) :=
  (reads_bytes 32).map Amount.toBytesBE fun _ _ =>
    and_congr_right fun _ => Amount.ofBytesBE_eq_iff

theorem reads_address : Reads address (fun _ => True) (fun a => a.toBytes.toList) :=
  (reads_bytes 20).map LedgerAddress.toBytes fun _ _ =>
    and_congr_right fun _ => LedgerAddress.ofBytes_eq_iff

/-- Two bytes hold every number of sixteen bits. -/
theorem reads_short : Reads short (fun _ => True) (fun n => Bytes.ofNatBE 2 n.toNat) :=
  (reads_bytes 2).map (fun n : UInt16 => FixedBytes.ofNatBE 2 n.toNat) fun b n => by
    refine and_congr_right fun _ => ⟨?_, ?_⟩
    · rintro rfl
      have hb : b.toNatBE < 2 ^ 16 := by
        have := Bytes.toNatBE_lt b.toList
        rwa [b.length_eq] at this
      rw [UInt16.toNat_ofNat_of_lt' hb, FixedBytes.ofNatBE_toNatBE]
    · rintro rfl
      rw [FixedBytes.toNatBE_ofNatBE n.toNat_lt, UInt16.ofNat_toNat]

/-- A field element is read from the bytes of its least residue only. -/
theorem reads_felt : Reads felt (fun _ => True) (fun a => a.toBytesBE.toList) := by
  intro c a c'
  rw [felt, offset_bind, bind_eq_ok_iff]
  constructor
  · rintro ⟨b, m, hb, hread⟩
    have hspan := (reads_bytes 32 c b m).mp hb
    cases hres : Felt.ofBytesBE? b with
    | none =>
      rw [hres] at hread
      exact absurd hread throw_ne_ok
    | some a' =>
      rw [hres] at hread
      obtain ⟨rfl, rfl⟩ := pure_eq_ok_iff.mp hread
      rwa [Felt.ofBytesBE?_eq_some_iff.mp hres] at hspan
  · intro hspan
    refine ⟨a.toBytesBE, c', (reads_bytes 32 c _ c').mpr hspan, ?_⟩
    rw [Felt.ofBytesBE?_eq_some_iff.mpr rfl]
    rfl

theorem finish_eq_ok_iff {c c' : Cursor} {u : Unit} :
    finish c = .ok (u, c') ↔ c.rest = [] ∧ c' = c := by
  unfold finish
  cases hrest : c.rest with
  | nil => simp [eq_comm]
  | cons b bs => simp

end Reader

end ShieldedWallet
