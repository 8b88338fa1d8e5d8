/-
The names of key files tell the shapes of transactions apart.

A circuit is named after its counts of inputs and outputs, both in decimal
digits, and each of its files is named after the circuit.  Numbers that have the
same digits are equal, so two shapes with a file of one name are one shape.

* `circuitName_append_inj` — names of circuits differ before what follows them;
* `KeyFiles.endsIn_relative` — the last name of a path is that of the circuit and
  an extension;
* `KeyFiles.apart_toList` — the three files of a circuit are apart;
* `KeyFiles.disjoint_toList`, `KeyFiles.apart_of_ne` — different shapes have no
  path in common, and no place that paths lead to.

Design notes: a root may end in anything, so only the last name of a path is
compared.
-/
import Mathlib.Data.List.Pairwise
import ShieldedWallet.Proofs.Numerals
import ShieldedWallet.Proofs.Paths
import ShieldedWallet.Proving.Keys

namespace ShieldedWallet

theorem toList_circuitName (inputs outputs : Nat) :
    (circuitName inputs outputs).toList =
      "zk_transaction_".toList ++ (Nat.toDigits 10 inputs ++ '_' :: Nat.toDigits 10 outputs) := by
  unfold circuitName
  simp only [String.toList_append, Nat.toString_eq_ofList_toDigits, String.toList_ofList,
    List.append_assoc]
  rfl

/-- The files of the circuit for a shape, relative to their root. -/
abbrev KeyFiles.ofShape (inputs outputs : Nat) : KeyFiles :=
  KeyFiles.relative (circuitName inputs outputs)

theorem slash_notMem_circuitName (inputs outputs : Nat) :
    '/' ∉ (circuitName inputs outputs).toList := by
  have hdigits (n : Nat) : '/' ∉ Nat.toDigits 10 n := by
    intro h
    exact absurd (Nat.isDigit_of_mem_toDigits (by decide) (by decide) h) (by decide)
  rw [toList_circuitName]
  simp [hdigits]

theorem length_circuitName_append (inputs outputs : Nat) (rest : List Char) :
    2 < ((circuitName inputs outputs).toList ++ rest).length := by
  rw [toList_circuitName, List.append_assoc, List.length_append]
  exact Nat.lt_add_right _ (by decide)

/-- The names of circuits with different shapes differ before what follows them. -/
theorem circuitName_append_inj {inputs outputs inputs' outputs' : Nat} {rest rest' : List Char}
    (hrest : rest.head?.all fun c => !c.isDigit) (hrest' : rest'.head?.all fun c => !c.isDigit)
    (h : (circuitName inputs outputs).toList ++ rest =
      (circuitName inputs' outputs').toList ++ rest') :
    inputs = inputs' ∧ outputs = outputs' := by
  have hdigits (n : Nat) : ∀ c ∈ Nat.toDigits 10 n, c.isDigit :=
    fun _ hc => Nat.isDigit_of_mem_toDigits (by decide) (by decide) hc
  simp only [toList_circuitName, List.append_assoc, List.cons_append,
    List.append_cancel_left_eq] at h
  -- the first number ends at the sign between the two, the second one at what follows
  obtain ⟨htake, hdrop⟩ := takeWhile_isDigit_append (hdigits inputs)
    ('_' :: (Nat.toDigits 10 outputs ++ rest)) rfl
  obtain ⟨htake', hdrop'⟩ := takeWhile_isDigit_append (hdigits inputs')
    ('_' :: (Nat.toDigits 10 outputs' ++ rest')) rfl
  have hinputs : Nat.toDigits 10 inputs = Nat.toDigits 10 inputs' := by
    rw [← htake, h, htake']
  have hbehind := List.cons.inj (hdrop.symm.trans ((congrArg _ h).trans hdrop'))
  have houtputs : Nat.toDigits 10 outputs = Nat.toDigits 10 outputs' := by
    rw [← (takeWhile_isDigit_append (hdigits outputs) rest hrest).1, hbehind.2,
      (takeWhile_isDigit_append (hdigits outputs') rest' hrest').1]
  exact ⟨toDigits_inj.mp hinputs, toDigits_inj.mp houtputs⟩

namespace KeyFiles

/-- The last name of each path is that of the circuit and an extension. -/
theorem endsIn_relative {circuit : String} (hcircuit : '/' ∉ circuit.toList) :
    EndsIn (relative circuit).program (circuit.toList ++ ".wasm".toList) ∧
      EndsIn (relative circuit).provingKey (circuit.toList ++ ".zkey".toList) ∧
        EndsIn (relative circuit).verifyingKey (circuit.toList ++ ".vk.json".toList) := by
  refine ⟨⟨?_, "circuits".toList, ?_⟩, ⟨?_, "zkeys".toList, ?_⟩, ⟨?_, "vks".toList, ?_⟩⟩ <;>
    simp [hcircuit, relative]

theorem endsIn_of_mem {circuit root path : String} (hcircuit : '/' ∉ circuit.toList)
    (h : path ∈ ((relative circuit).under root).toList) :
    ∃ extension ∈ [".wasm", ".zkey", ".vk.json"],
      EndsIn path (circuit.toList ++ extension.toList) := by
  obtain ⟨hprogram, hproving, hverifying⟩ := endsIn_relative hcircuit
  simp only [toList, List.mem_cons, List.not_mem_nil, or_false] at h
  rcases h with rfl | rfl | rfl
  · exact ⟨".wasm", by simp, hprogram.below root⟩
  · exact ⟨".zkey", by simp, hproving.below root⟩
  · exact ⟨".vk.json", by simp, hverifying.below root⟩

/-- The three files of a circuit are apart below any root, since their extensions differ. -/
theorem apart_toList {circuit : String} (hcircuit : '/' ∉ circuit.toList) (root : String) :
    (relative circuit).toList.Pairwise fun path other =>
      path ≠ other ∧ Apart (below root path) (below root other) := by
  have hapart {path other extension extension' : String}
      (h : EndsIn path (circuit.toList ++ extension.toList))
      (h' : EndsIn other (circuit.toList ++ extension'.toList))
      (hlong : 2 < extension.toList.length) (hlong' : 2 < extension'.toList.length)
      (hne : extension.toList ≠ extension'.toList) :
      path ≠ other ∧ Apart (below root path) (below root other) := by
    have hnames : circuit.toList ++ extension.toList ≠ circuit.toList ++ extension'.toList :=
      fun heq => hne (List.append_cancel_left heq)
    refine ⟨?_, (h.below root).apart (h'.below root) ?_ ?_ hnames⟩
    · rintro rfl
      exact hnames (h.unique h')
    · rw [List.length_append]
      exact Nat.lt_add_left _ hlong
    · rw [List.length_append]
      exact Nat.lt_add_left _ hlong'
  obtain ⟨hprogram, hproving, hverifying⟩ := endsIn_relative hcircuit
  refine List.pairwise_cons.mpr ⟨?_, List.pairwise_pair.mpr ?_⟩
  · refine List.forall_mem_cons.mpr ⟨?_, List.forall_mem_singleton.mpr ?_⟩
    · exact hapart hprogram hproving (by decide) (by decide) (by decide)
    · exact hapart hprogram hverifying (by decide) (by decide) (by decide)
  · exact hapart hproving hverifying (by decide) (by decide) (by decide)

/-- Two files of a circuit below one root are one path, or apart. -/
theorem eq_or_apart {circuit path other : String} (hcircuit : '/' ∉ circuit.toList) (root : String)
    (hpath : path ∈ (relative circuit).toList) (hother : other ∈ (relative circuit).toList) :
    below root path = below root other ∨ Apart (below root path) (below root other) := by
  have hsymm : Std.Symm fun path other =>
      path ≠ other ∧ Apart (below root path) (below root other) :=
    ⟨fun _ _ h => ⟨h.1.symm, h.2.symm⟩⟩
  by_cases h : path = other
  · exact .inl (congrArg (below root) h)
  · exact .inr ((apart_toList hcircuit root).forall hpath hother h).2

theorem shape_inj {inputs outputs inputs' outputs' : Nat} {root root' path path' : String}
    {name : List Char} (h : path ∈ ((ofShape inputs outputs).under root).toList)
    (h' : path' ∈ ((ofShape inputs' outputs').under root').toList) (hname : EndsIn path name)
    (hname' : EndsIn path' name) : (inputs, outputs) = (inputs', outputs') := by
  obtain ⟨extension, hmem, hends⟩ := endsIn_of_mem (slash_notMem_circuitName _ _) h
  obtain ⟨extension', hmem', hends'⟩ := endsIn_of_mem (slash_notMem_circuitName _ _) h'
  have hdot : ∀ e ∈ [".wasm", ".zkey", ".vk.json"], e.toList.head?.all fun c => !c.isDigit := by
    decide
  obtain ⟨rfl, rfl⟩ := circuitName_append_inj (hdot _ hmem) (hdot _ hmem')
    ((hends.unique hname).trans (hname'.unique hends'))
  rfl

/-- Circuits of different shapes have no path in common, below whichever roots. -/
theorem disjoint_toList {inputs outputs inputs' outputs' : Nat} (root root' : String)
    (h : (inputs, outputs) ≠ (inputs', outputs')) :
    ((ofShape inputs outputs).under root).toList.Disjoint
      ((ofShape inputs' outputs').under root').toList := by
  intro path hpath hpath'
  obtain ⟨extension, -, hends⟩ := endsIn_of_mem (slash_notMem_circuitName _ _) hpath
  exact h (shape_inj hpath hpath' hends hends)

/-- Nor do paths of different shapes lead to one place, in whichever trees. -/
theorem apart_of_ne {inputs outputs inputs' outputs' : Nat} {root root' path path' : String}
    (h : (inputs, outputs) ≠ (inputs', outputs'))
    (hpath : path ∈ ((ofShape inputs outputs).under root).toList)
    (hpath' : path' ∈ ((ofShape inputs' outputs').under root').toList) : Apart path path' := by
  obtain ⟨extension, -, hends⟩ := endsIn_of_mem (slash_notMem_circuitName _ _) hpath
  obtain ⟨extension', -, hends'⟩ := endsIn_of_mem (slash_notMem_circuitName _ _) hpath'
  refine hends.apart hends' (length_circuitName_append _ _ _) (length_circuitName_append _ _ _) ?_
  intro heq
  exact h (shape_inj hpath hpath' hends (heq ▸ hends'))

end KeyFiles

end ShieldedWallet
