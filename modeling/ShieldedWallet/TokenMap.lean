/-
Values by token, in ascending order of tokens.

A token map is a list of pairs whose tokens ascend strictly.  It is read by
`get?` and written by `set`, which keeps the order.

* `get?_set_self`, `get?_set_of_ne` — a value written is read back, and every
  other token keeps its value;
* `mem_keys_set` — writing adds the token to the keys and no other;
* `ascending_cons_iff` — the first token is below all others;
* `Ascending.set` — writing keeps the order.

Design notes: order is part of what the map shows, since totals are listed and
selections made in ascending order of tokens.
-/
import ShieldedWallet.Address.Ledger

namespace ShieldedWallet

/-- Values by token, ascending. -/
abbrev TokenMap (α : Type) := List (LedgerAddress × α)

namespace TokenMap

variable {α : Type}

/-- The value of a token. -/
def get? (m : TokenMap α) (token : LedgerAddress) : Option α :=
  match m with
  | [] => none
  | (t, v) :: rest => if t = token then some v else get? rest token

/-- The map with a value for a token, in its place. -/
def set (m : TokenMap α) (token : LedgerAddress) (value : α) : TokenMap α :=
  match m with
  | [] => [(token, value)]
  | (t, v) :: rest =>
    if t = token then (token, value) :: rest
    else if token < t then (token, value) :: (t, v) :: rest
    else (t, v) :: set rest token value

/-- The tokens that have a value, ascending. -/
def keys (m : TokenMap α) : List LedgerAddress := m.map Prod.fst

/-- The tokens ascend strictly. -/
def Ascending (m : TokenMap α) : Prop := m.keys.Pairwise (· < ·)

theorem ascending_cons_iff {e : LedgerAddress × α} {rest : TokenMap α} :
    Ascending (e :: rest) ↔ (∀ token ∈ rest.keys, e.1 < token) ∧ rest.Ascending :=
  List.pairwise_cons

theorem Ascending.ne_of_mem_keys {e : LedgerAddress × α} {rest : TokenMap α}
    (h : Ascending (e :: rest)) {token : LedgerAddress} (hmem : token ∈ rest.keys) :
    e.1 ≠ token := by
  rintro rfl
  exact Nat.lt_irrefl _ ((ascending_cons_iff.mp h).1 e.1 hmem)

theorem get?_set_self (m : TokenMap α) (token : LedgerAddress) (value : α) :
    (m.set token value).get? token = some value := by
  induction m with
  | nil => simp [set, get?]
  | cons e rest ih =>
    obtain ⟨t, v⟩ := e
    by_cases h : t = token
    · simp [set, get?, h]
    · by_cases hlt : token < t
      · simp [set, get?, h, hlt]
      · simp [set, get?, h, hlt, ih]

theorem get?_set_of_ne (m : TokenMap α) {token other : LedgerAddress} (value : α)
    (hne : other ≠ token) : (m.set token value).get? other = m.get? other := by
  have hne' : token ≠ other := fun h => hne h.symm
  induction m with
  | nil => simp [set, get?, hne']
  | cons e rest ih =>
    obtain ⟨t, v⟩ := e
    by_cases h : t = token
    · subst h
      simp [set, get?, hne']
    · by_cases hlt : token < t
      · simp [set, get?, h, hlt, hne']
      · simp [set, get?, h, hlt, ih]

theorem mem_keys_set (m : TokenMap α) (token other : LedgerAddress) (value : α) :
    other ∈ (m.set token value).keys ↔ other = token ∨ other ∈ m.keys := by
  induction m with
  | nil => simp [set, keys]
  | cons e rest ih =>
    obtain ⟨t, v⟩ := e
    by_cases h : t = token
    · subst h
      simp [set, keys]
    · by_cases hlt : token < t
      · simp [set, keys, h, hlt]
      · simp only [keys] at ih
        simp only [set, keys, h, hlt, if_false, List.map_cons, List.mem_cons, ih]
        constructor
        · rintro (h | h | h) <;> simp [h]
        · rintro (h | h | h) <;> simp [h]

theorem Ascending.set {m : TokenMap α} (h : m.Ascending) (token : LedgerAddress) (value : α) :
    (m.set token value).Ascending := by
  induction m with
  | nil => simp [TokenMap.set, Ascending, keys]
  | cons e rest ih =>
    obtain ⟨t, v⟩ := e
    obtain ⟨hbelow, hrest⟩ := ascending_cons_iff.mp h
    by_cases heq : t = token
    · subst heq
      rw [TokenMap.set, if_pos rfl]
      exact ascending_cons_iff.mpr ⟨hbelow, hrest⟩
    · by_cases hlt : token < t
      · rw [TokenMap.set, if_neg heq, if_pos hlt]
        refine ascending_cons_iff.mpr ⟨?_, h⟩
        rintro a (_ | ⟨_, ha⟩)
        · exact hlt
        · exact Nat.lt_trans hlt (hbelow a ha)
      · rw [TokenMap.set, if_neg heq, if_neg hlt]
        refine ascending_cons_iff.mpr ⟨fun a ha => ?_, ih hrest⟩
        rcases (mem_keys_set rest token a value).mp ha with rfl | ha
        · exact Nat.lt_of_le_of_ne (Nat.le_of_not_lt hlt) fun hn => heq (LedgerAddress.ext hn)
        · exact hbelow a ha

end TokenMap

end ShieldedWallet
