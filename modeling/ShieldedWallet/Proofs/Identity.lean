/-
What the digest of a transaction identifies.

The digest is taken over parts laid side by side without counts, kinds or marks
of presence.  From the end, fee, proof and swap have fixed lengths and are found
again.  What is left, the inputs and outputs, can be cut in more than one way
unless it is known which outputs show data.

* `Transaction.body` — the bytes of inputs and outputs;
* `Transaction.packed_eq_iff` — what is packed agrees exactly if body, swap,
  proof and fee do;
* `Transaction.inflow_eq_of_body`, `Transaction.outflow_eq_of_body` — bodies
  whose outputs show data at the same places are found again, up to which exit
  is a withdrawal and which a migration;
* `Transaction.identity_of_hash_eq` — the same for transactions of one digest,
  short of a collision;
* `Transaction.hash_confuses` — pairs of transactions that one digest does not
  tell apart, one for each mark that is left out.

Design notes: a collision is two different packed strings of one digest; nothing
is assumed of the digest itself.
-/
import ShieldedWallet.Proofs.Wire

namespace ShieldedWallet

/-! ### Fields -/

theorem Amount.toBytesBE_inj {a b : Amount} (h : a.toBytesBE.toList = b.toBytesBE.toList) : a = b :=
  Amount.ext (Bytes.ofNatBE_inj a.isLt b.isLt h)

theorem Felt.toBytesBE_inj {a b : Felt} (h : a.toBytesBE.toList = b.toBytesBE.toList) : a = b := by
  have ha : a.val < 256 ^ 32 := Nat.lt_trans a.isLt fieldOrder_lt_bytes
  have hb : b.val < 256 ^ 32 := Nat.lt_trans b.isLt fieldOrder_lt_bytes
  exact Fin.ext (Bytes.ofNatBE_inj ha hb h)

theorem LedgerAddress.toBytes_inj {a b : LedgerAddress}
    (h : a.toBytes.toList = b.toBytes.toList) : a = b :=
  LedgerAddress.ext (Bytes.ofNatBE_inj (w := 20) a.isLt b.isLt h)

theorem ExitData.toBytes_inj {d d' : ExitData} (h : d.toBytes = d'.toBytes) : d = d' := by
  -- all fields have fixed lengths, so they are cut off one by one from the end
  obtain ⟨h, hfee⟩ := List.append_inj' h (by simp)
  obtain ⟨h, htokenId⟩ := List.append_inj' h (by simp)
  obtain ⟨h, hamount⟩ := List.append_inj' h (by simp)
  obtain ⟨h, htoken⟩ := List.append_inj' h (by simp)
  obtain ⟨hdestination, heth⟩ := List.append_inj' h (by simp)
  exact ExitData.ext (LedgerAddress.toBytes_inj hdestination) (Amount.toBytesBE_inj heth)
    (LedgerAddress.toBytes_inj htoken) (Amount.toBytesBE_inj hamount)
    (Amount.toBytesBE_inj htokenId) (Amount.toBytesBE_inj hfee)

theorem Groth16Proof.coordinates_inj {p p' : Groth16Proof}
    (h : p.coordinates = p'.coordinates) : p = p' := by
  simp only [coordinates, List.cons.injEq] at h
  obtain ⟨hax, hay, hb00, hb01, hb10, hb11, hcx, hcy, -⟩ := h
  exact Groth16Proof.ext hax hay hb00 hb01 hb10 hb11 hcx hcy

/-! ### Blocks -/

/-- Blocks laid side by side are found again if something seen of each tells its length. -/
theorem map_eq_of_flatMap_eq {α β γ : Type} {f : α → Bytes} {seen : α → β} {g : α → γ}
    {xs ys : List α} (hlen : ∀ x y, seen x = seen y → (f x).length = (f y).length)
    (hinj : ∀ x y, seen x = seen y → f x = f y → g x = g y) (hseen : xs.map seen = ys.map seen)
    (h : xs.flatMap f = ys.flatMap f) : xs.map g = ys.map g := by
  -- the first blocks have one length, so they are cut off together
  induction xs generalizing ys with
  | nil =>
    rw [List.map_nil, eq_comm, List.map_eq_nil_iff] at hseen
    rw [hseen]
  | cons x xs ih =>
    cases ys with
    | nil => cases hseen
    | cons y ys =>
      obtain ⟨hhead, htail⟩ := List.cons.inj hseen
      obtain ⟨hblock, hrest⟩ := List.append_inj h (hlen x y hhead)
      rw [List.map_cons, List.map_cons, hinj x y hhead hblock, ih htail hrest]

theorem eq_of_flatMap_eq {α : Type} {f : α → Bytes} {xs ys : List α}
    (hlen : ∀ x y, (f x).length = (f y).length) (hinj : ∀ x y, f x = f y → x = y)
    (hcount : xs.length = ys.length) (h : xs.flatMap f = ys.flatMap f) : xs = ys := by
  -- of blocks of one length nothing has to be seen but how many there are
  have hseen : xs.map (fun _ => ()) = ys.map (fun _ => ()) := by
    rw [List.map_const', List.map_const', hcount]
  have hmap : xs.map id = ys.map id :=
    map_eq_of_flatMap_eq (fun x y _ => hlen x y) (fun x y _ => hinj x y) hseen h
  rwa [List.map_id, List.map_id] at hmap

/-! ### Inputs and outputs -/

def Spend.packed (s : Spend) : Bytes := s.root.toBytesBE.toList ++ s.nullifier.toBytesBE.toList

theorem Spend.length_packed (s : Spend) : s.packed.length = 64 := by
  simp [Spend.packed]

theorem Spend.packed_inj {s s' : Spend} (h : s.packed = s'.packed) : s = s' := by
  obtain ⟨hroot, hnullifier⟩ := List.append_inj' h (by simp)
  exact Spend.ext (Felt.toBytesBE_inj hnullifier) (Felt.toBytesBE_inj hroot)

namespace OutflowView

/-- The view of an output as it is packed: without its kind. -/
def packed (o : OutflowView) : Bytes :=
  o.note.toBytesBE.toList ++ (o.data.map ExitData.toBytes).getD []

/-- The view of an output but for its kind. -/
def content (o : OutflowView) : Felt × Option ExitData := (o.note, o.data)

theorem length_packed (o : OutflowView) :
    o.packed.length = 32 + if o.data.isSome then ExitData.byteLength else 0 := by
  rw [packed, List.length_append]
  cases o.data <;> simp

theorem content_eq_of_packed {o o' : OutflowView} (hpresent : o.data.isSome = o'.data.isSome)
    (h : o.packed = o'.packed) : o.content = o'.content := by
  obtain ⟨hnote, hbytes⟩ := List.append_inj h (by simp)
  have hdata : o.data = o'.data := by
    refine data_eq hpresent fun d d' hd hd' => ExitData.toBytes_inj ?_
    rwa [hd, hd'] at hbytes
  rw [content, content, Felt.toBytesBE_inj hnote, hdata]

end OutflowView

/-! ### What is packed -/

namespace Transaction

/-- The bytes of inputs and outputs. -/
def body (tx : Transaction) : Bytes :=
  tx.inflow.flatMap Spend.packed ++ tx.outflow.flatMap OutflowView.packed

variable {tx tx' : Transaction}

/-- What is packed tells body, swap, proof and fee, where no swap reads as the swap zero. -/
theorem packed_eq_iff :
    tx.packed = tx'.packed ↔
      tx.body = tx'.body ∧ tx.swap.getD 0 = tx'.swap.getD 0 ∧ tx.proof = tx'.proof ∧
        tx.fee = tx'.fee := by
  constructor
  · intro h
    -- the parts behind the body have fixed lengths and are cut off from the end
    obtain ⟨h, hfee⟩ := List.append_inj' h (by simp)
    obtain ⟨h, hproof⟩ := List.append_inj' h (by simp [Groth16Proof.coordinates])
    obtain ⟨hbody, hswap⟩ := List.append_inj' h (by simp)
    have hcoordinates : tx.proof.coordinates = tx'.proof.coordinates :=
      eq_of_flatMap_eq (fun _ _ => by simp) (fun _ _ => Amount.toBytesBE_inj) rfl hproof
    exact ⟨hbody, Felt.toBytesBE_inj hswap, Groth16Proof.coordinates_inj hcoordinates,
      Amount.toBytesBE_inj hfee⟩
  · rintro ⟨hbody, hswap, hproof, hfee⟩
    show tx.body ++ _ ++ _ ++ _ = tx'.body ++ _ ++ _ ++ _
    rw [hbody, hswap, hproof, hfee]

/-- Which outputs show data. -/
def shape (tx : Transaction) : List Bool := tx.outflow.map fun o => o.data.isSome

theorem length_outflow_packed (tx : Transaction) :
    (tx.outflow.flatMap OutflowView.packed).length =
      (tx.shape.map fun shown => 32 + if shown then ExitData.byteLength else 0).sum := by
  rw [List.length_flatMap, shape, List.map_map]
  exact congrArg List.sum (List.map_congr_left fun o _ => o.length_packed)

section Body

variable (hshape : tx.shape = tx'.shape) (hbody : tx.body = tx'.body)

include hshape hbody

/-- Bodies of one shape are cut into inputs and outputs at the same place. -/
theorem flatMap_eq_of_body :
    tx.inflow.flatMap Spend.packed = tx'.inflow.flatMap Spend.packed ∧
      tx.outflow.flatMap OutflowView.packed = tx'.outflow.flatMap OutflowView.packed := by
  refine List.append_inj' hbody ?_
  rw [length_outflow_packed, length_outflow_packed, hshape]

theorem inflow_eq_of_body : tx.inflow = tx'.inflow := by
  -- the spends take the same room, and each of them takes 64 bytes
  have hinflow := (flatMap_eq_of_body hshape hbody).1
  have hcount : tx.inflow.length = tx'.inflow.length := by
    have hroom := congrArg List.length hinflow
    simp only [List.length_flatMap, Spend.length_packed, List.map_const', List.sum_replicate_nat]
      at hroom
    omega
  refine eq_of_flatMap_eq (fun s s' => ?_) (fun _ _ => Spend.packed_inj) hcount hinflow
  rw [s.length_packed, s'.length_packed]

theorem outflow_eq_of_body :
    tx.outflow.map OutflowView.content = tx'.outflow.map OutflowView.content := by
  have houtflow := (flatMap_eq_of_body hshape hbody).2
  refine map_eq_of_flatMap_eq (fun o o' hpresent => ?_)
    (fun _ _ => OutflowView.content_eq_of_packed) hshape houtflow
  rw [o.length_packed, o'.length_packed, hpresent]

end Body

/-! ### The digest -/

/-- The transaction is what is made of its parts. -/
def Made (tx : Transaction) : Prop :=
  make? tx.inflow tx.outflow tx.fee tx.proof tx.swap tx.memo = .ok tx

/-- Outputs that show data are those that leave the pool. -/
theorem Made.shape_eq (h : tx.Made) : tx.shape = tx.outflow.map fun o => o.kind.isPublic :=
  List.map_congr_left (make?_eq_ok_iff.mp h).1.consistent

/-- Transactions of one digest, short of a collision, have the same fee, proof and swap, where no
swap reads as the swap zero, and the same body.  If the same outputs leave the pool, they void the
same notes, and their outputs agree one by one but for which exit is a withdrawal and which a
migration. -/
theorem identity_of_hash_eq (h : tx.Made) (h' : tx'.Made) (hhash : tx.hash = tx'.hash) :
    (tx.packed ≠ tx'.packed ∧ keccak256 tx.packed = keccak256 tx'.packed) ∨
      (tx.fee = tx'.fee ∧ tx.proof = tx'.proof ∧ tx.swap.getD 0 = tx'.swap.getD 0 ∧
        tx.body = tx'.body ∧
        (tx.outflow.map (fun o => o.kind.isPublic) = tx'.outflow.map (fun o => o.kind.isPublic) →
          tx.inflow = tx'.inflow ∧
            tx.outflow.map (fun o => (o.note, o.data)) =
              tx'.outflow.map fun o => (o.note, o.data))) := by
  by_cases hpacked : tx.packed = tx'.packed
  · obtain ⟨hbody, hswap, hproof, hfee⟩ := packed_eq_iff.mp hpacked
    refine .inr ⟨hfee, hproof, hswap, hbody, fun hkinds => ?_⟩
    have hshape : tx.shape = tx'.shape := by rw [h.shape_eq, h'.shape_eq, hkinds]
    exact ⟨inflow_eq_of_body hshape hbody, outflow_eq_of_body hshape hbody⟩
  · exact .inl ⟨hpacked, hhash⟩

/-- A transaction of given inputs, outputs and swap. -/
def bare (inflow : List Spend) (outflow : List OutflowView) (swap : Option Felt) : Transaction where
  inflow := inflow
  outflow := outflow
  fee := 12
  proof := ⟨1, 2, 3, 4, 5, 6, 7, 8⟩
  swap := swap
  memo := none

/-- A transaction whose one output is an exit of a kind. -/
def leaving (kind : OutflowKind) : Transaction :=
  bare [⟨3, 5⟩] [⟨8, kind, some { ExitData.zero with eth := 9, fee := 2 }⟩] none

theorem leaving_packed : (leaving .withdrawal).packed = (leaving .migration).packed := rfl

/-- A withdrawal and a migration of one digest void the same note and show the same data. -/
theorem identity_of_hash_eq_leaving :
    (leaving .withdrawal).hash = (leaving .migration).hash ∧
      (leaving .withdrawal).inflow = (leaving .migration).inflow ∧
      (leaving .withdrawal).outflow.map (fun o => (o.note, o.data)) =
        (leaving .migration).outflow.map fun o => (o.note, o.data) := by
  have hmade : (leaving .withdrawal).Made := rfl
  have hmade' : (leaving .migration).Made := rfl
  have hhash : (leaving .withdrawal).hash = (leaving .migration).hash :=
    congrArg keccak256 leaving_packed
  refine ⟨hhash, ?_⟩
  rcases identity_of_hash_eq hmade hmade' hhash with ⟨hpacked, -⟩ | ⟨-, -, -, -, hsame⟩
  · exact absurd leaving_packed hpacked
  · exact hsame rfl

/-! ### What the digest leaves out -/

/-- The digest does not tell two transactions apart, though they differ in more than the memo and
what is packed of them is no collision. -/
structure Confused (tx tx' : Transaction) : Prop where
  made : tx.Made
  made' : tx'.Made
  packed_eq : tx.packed = tx'.packed
  hash_eq : tx.hash = tx'.hash
  differ : ¬ (tx.inflow = tx'.inflow ∧ tx.outflow = tx'.outflow ∧ tx.fee = tx'.fee ∧
    tx.proof = tx'.proof ∧ tx.swap = tx'.swap)

theorem confused_of_packed_eq (h : tx.Made) (h' : tx'.Made) (hpacked : tx.packed = tx'.packed)
    (hdiffer : ¬ (tx.inflow = tx'.inflow ∧ tx.outflow = tx'.outflow ∧ tx.fee = tx'.fee ∧
      tx.proof = tx'.proof ∧ tx.swap = tx'.swap)) : tx.Confused tx' :=
  ⟨h, h', hpacked, congrArg keccak256 hpacked, hdiffer⟩

/-- The digest leaves out which exit is a withdrawal, whether there is a swap, where the inputs end,
and which outputs show data. -/
theorem hash_confuses :
    (leaving .withdrawal).Confused (leaving .migration) ∧
      (bare [] [] none).Confused (bare [] [] (some 0)) ∧
      (bare [⟨3, 5⟩] [] none).Confused (bare [] [⟨5, .plain, none⟩, ⟨3, .plain, none⟩] none) ∧
      (bare [] [⟨0, .plain, none⟩, ⟨0, .withdrawal, some .zero⟩] none).Confused
        (bare [] [⟨0, .withdrawal, some .zero⟩, ⟨0, .plain, none⟩] none) := by
  refine ⟨?kind, ?swap, ?count, ?place⟩
  case kind => exact confused_of_packed_eq rfl rfl leaving_packed (by decide)
  case swap => exact confused_of_packed_eq rfl rfl rfl (by decide)
  case count => exact confused_of_packed_eq rfl rfl rfl (by decide)
  case place => exact confused_of_packed_eq rfl rfl (by decide +kernel) (by decide)

end Transaction

end ShieldedWallet
