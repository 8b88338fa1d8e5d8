/-
What the environment overrides.

Each setting has a variable of its own.  A text in that variable which can be read
takes the place of the setting, and nothing else has any effect on it.

* `WordText`, `SameLetters` — which texts write a number, and which write a name
  in letters of either case;
* `Setting` — the six settings, each with its variable and its readable texts;
* `Config.get_override` — the one rule that holds for all of them;
* `Config.override_exact` — what becomes of each setting, and in particular how
  the mock prover, a fee of zero and no timeout can come about.

Design notes: which texts can be read is said apart from the readers, which are
shown to agree with it.
-/
import Mathlib
import ShieldedWallet.Config.Basic
import ShieldedWallet.Proofs.Numerals

namespace ShieldedWallet

-- Powers of numbers are those of the core library, whatever else is imported.
attribute [local instance (high)] instPowNat

/-! ### Numbers -/

/-- Decimal digits that write a number, behind a plus sign or none. -/
def WordText (text : String) (n : UInt64) : Prop :=
  ∃ digits, digits ≠ [] ∧ (∀ c ∈ digits, c.isDigit) ∧ digitsValue digits = n.toNat ∧
    (text.toList = digits ∨ text.toList = '+' :: digits)

/-- Characters without a plus sign at their front. -/
def unsigned : List Char → List Char
  | '+' :: rest => rest
  | cs => cs

theorem unsigned_eq_iff {cs digits : List Char} (h : ∀ c ∈ digits, c.isDigit) :
    unsigned cs = digits ↔ cs = digits ∨ cs = '+' :: digits := by
  constructor
  · intro hcs
    unfold unsigned at hcs
    split at hcs
    · exact .inr (by rw [hcs])
    · exact .inl hcs
  · rintro (rfl | rfl)
    · unfold unsigned
      split
      · exact absurd (h '+' List.mem_cons_self) (by decide)
      · rfl
    · rfl

theorem wordOfText?_eq_some_iff {text : String} {n : UInt64} :
    wordOfText? text = some n ↔ WordText text n := by
  have hread : wordOfText? text =
      if (unsigned text.toList).isEmpty || !(unsigned text.toList).all Char.isDigit then none
      else if digitsValue (unsigned text.toList) < 2 ^ 64 then
        some (UInt64.ofNat (digitsValue (unsigned text.toList)))
      else none := rfl
  rw [hread]
  constructor
  · intro h
    split at h
    · cases h
    · next hdigits =>
      split at h
      · next hlt =>
        simp only [Bool.or_eq_true, not_or, List.isEmpty_iff, Bool.not_eq_true', Bool.not_eq_false,
          List.all_eq_true] at hdigits
        obtain rfl := Option.some.inj h
        exact ⟨_, hdigits.1, hdigits.2, (UInt64.toNat_ofNat_of_lt' hlt).symm,
          (unsigned_eq_iff hdigits.2).mp rfl⟩
      · cases h
  · rintro ⟨digits, hne, hall, hvalue, htext⟩
    have hlt : digitsValue digits < 2 ^ 64 := hvalue ▸ n.toNat_lt
    have hempty : digits.isEmpty = false := by simpa using hne
    rw [(unsigned_eq_iff hall).mpr htext, hempty, List.all_eq_true.mpr hall]
    rw [if_neg (by decide), if_pos hlt, hvalue, UInt64.ofNat_toNat]

/-! ### Names -/

/-- The text is a name of small letters, each of them or its capital in its place. -/
def SameLetters (name text : String) : Prop :=
  List.Forall₂ (fun d c => c = d ∨ c = d.toUpper) name.toList text.toList

theorem toLower_eq_iff {c d : Char} (hd : d.isLower) : c.toLower = d ↔ c = d ∨ c = d.toUpper := by
  have hsmall : d.toLower = d :=
    Char.toLower_eq_of_not_isUpper (Char.not_isUpper_of_isLower hd)
  constructor
  · rintro rfl
    by_cases hc : c.isUpper
    · right
      rw [Char.toUpper_toLower_eq_toUpper,
        Char.toUpper_eq_of_not_isLower (Char.not_isLower_of_isUpper hc)]
    · left
      rw [Char.toLower_eq_of_not_isUpper hc]
  · rintro (rfl | rfl)
    · exact hsmall
    · rw [Char.toLower_toUpper_eq_toLower, hsmall]

theorem map_toLower_eq_iff {ds cs : List Char} (h : ∀ d ∈ ds, d.isLower) :
    cs.map Char.toLower = ds ↔ List.Forall₂ (fun d c => c = d ∨ c = d.toUpper) ds cs := by
  induction ds generalizing cs with
  | nil => rw [List.map_eq_nil_iff, List.forall₂_nil_left_iff]
  | cons d ds ih =>
    have hd : d.isLower := h d List.mem_cons_self
    have hds : ∀ d ∈ ds, d.isLower := fun d hd => h d (List.mem_cons_of_mem _ hd)
    cases cs with
    | nil => exact iff_of_false nofun nofun
    | cons c cs =>
      rw [List.map_cons, List.cons.injEq, List.forall₂_cons, toLower_eq_iff hd, ih hds]

theorem sameLetters_iff {name : String} (h : ∀ d ∈ name.toList, d.isLower) (text : String) :
    SameLetters name text ↔ text.map Char.toLower = name := by
  rw [← String.toList_inj, String.toList_map, map_toLower_eq_iff h, SameLetters]

/-- The names of a prover in a variable. -/
def ProverMode.names : ProverMode → List String
  | .command => ["command", "snarkjs"]
  | .mock => ["mock"]

theorem ProverMode.ofText?_eq_some_iff {text : String} {mode : ProverMode} :
    ofText? text = some mode ↔ ∃ name ∈ mode.names, SameLetters name text := by
  have hlower : ∀ name ∈ ["command", "snarkjs", "mock"], ∀ d ∈ name.toList, d.isLower := by simp
  have hcommand := sameLetters_iff (hlower "command" (by simp)) text
  have hsnarkjs := sameLetters_iff (hlower "snarkjs" (by simp)) text
  have hmock := sameLetters_iff (hlower "mock" (by simp)) text
  unfold ofText?
  cases mode with
  | command =>
    simp only [names, List.mem_cons, List.not_mem_nil, or_false, exists_eq_or_imp, exists_eq_left,
      hcommand, hsnarkjs]
    grind
  | mock =>
    simp only [names, List.mem_singleton, exists_eq_left, hmock]
    grind

/-! ### Settings -/

/-- What the environment can override. -/
inductive Setting where
  | feePerByte
  | localDir
  | remoteRoot
  | proverMode
  | proverBinary
  | proofTimeout
  deriving DecidableEq

namespace Setting

/-- What a setting can be set to. -/
abbrev Value : Setting → Type
  | feePerByte => UInt64
  | localDir => Option String
  | remoteRoot => Option String
  | proverMode => ProverMode
  | proverBinary => String
  | proofTimeout => Option UInt64

/-- The variable that overrides a setting. -/
def variableName : Setting → String
  | feePerByte => "VEIL_FEE_PER_BYTE"
  | localDir => "VEIL_CIRCUIT_DIR"
  | remoteRoot => "VEIL_CIRCUIT_REMOTE"
  | proverMode => "VEIL_PROVER_MODE"
  | proverBinary => "VEIL_PROVER_BIN"
  | proofTimeout => "VEIL_PROOF_TIMEOUT_SECS"

theorem variableName_inj {s s' : Setting} (h : s.variableName = s'.variableName) : s = s' := by
  cases s <;> cases s' <;> first | rfl | exact absurd h (by decide)

/-- The texts that a setting can be read from, each with what it means. -/
def Reads : (s : Setting) → String → s.Value → Prop
  | feePerByte, text, n => WordText text n
  | localDir, text, dir => dir = some text
  | remoteRoot, text, root => root = some text
  | proverMode, text, mode => ∃ name ∈ mode.names, SameLetters name text
  | proverBinary, text, binary => binary = text
  | proofTimeout, text, timeout => ∃ n, timeout = some n ∧ WordText text n

/-- What a text means for a setting, if it can be read. -/
def read? : (s : Setting) → String → Option s.Value
  | feePerByte, text => wordOfText? text
  | localDir, text => some (some text)
  | remoteRoot, text => some (some text)
  | proverMode, text => ProverMode.ofText? text
  | proverBinary, text => some text
  | proofTimeout, text => (wordOfText? text).map some

theorem read?_eq_some_iff {s : Setting} {text : String} {v : s.Value} :
    s.read? text = some v ↔ s.Reads text v := by
  cases s with
  | feePerByte => exact wordOfText?_eq_some_iff
  | localDir => exact Option.some_inj.trans eq_comm
  | remoteRoot => exact Option.some_inj.trans eq_comm
  | proverMode => exact ProverMode.ofText?_eq_some_iff
  | proverBinary => exact Option.some_inj.trans eq_comm
  | proofTimeout =>
    simp only [read?, Reads, Option.map_eq_some_iff, wordOfText?_eq_some_iff]
    exact exists_congr fun n => and_comm.trans (and_congr_left fun _ => eq_comm)

end Setting

namespace Config

/-- What a setting is set to. -/
def get (c : Config) : (s : Setting) → s.Value
  | .feePerByte => c.feePerByte
  | .localDir => c.localDir
  | .remoteRoot => c.remoteRoot
  | .proverMode => c.proverMode
  | .proverBinary => c.proverBinary
  | .proofTimeout => c.proofTimeout

theorem ext_get {c c' : Config} (h : ∀ s, c.get s = c'.get s) : c = c' := by
  obtain ⟨_, _, _, _, _, _⟩ := c
  obtain ⟨_, _, _, _, _, _⟩ := c'
  rw [mk.injEq]
  exact ⟨h .feePerByte, h .localDir, h .remoteRoot, h .proverMode, h .proverBinary,
    h .proofTimeout⟩

variable {env env' : Environment} {c c' : Config}

theorem or_eq_getD {α β : Type} (text : Option α) (read : α → Option β) (previous : Option β) :
    (text.bind read).or previous = (text.bind fun t => (read t).map some).getD previous := by
  cases text with
  | none => rfl
  | some t =>
    rw [Option.bind_some, Option.bind_some]
    cases read t <;> rfl

/-- A setting becomes what its variable can be read as, and stays what it was otherwise. -/
theorem get_override (env : Environment) (c : Config) (s : Setting) :
    (override env c).get s = ((env s.variableName).bind s.read?).getD (c.get s) := by
  -- a text is read as itself, or as a number or a mode, and two settings may have no value at all
  cases s with
  | feePerByte => rfl
  | localDir =>
    refine Eq.trans ?_ (or_eq_getD (env "VEIL_CIRCUIT_DIR") some c.localDir)
    rw [Option.bind_fun_some]
    rfl
  | remoteRoot =>
    refine Eq.trans ?_ (or_eq_getD (env "VEIL_CIRCUIT_REMOTE") some c.remoteRoot)
    rw [Option.bind_fun_some]
    rfl
  | proverMode => rfl
  | proverBinary =>
    show _ = ((env "VEIL_PROVER_BIN").bind some).getD c.proverBinary
    rw [Option.bind_fun_some]
    rfl
  | proofTimeout => exact or_eq_getD (env "VEIL_PROOF_TIMEOUT_SECS") wordOfText? c.proofTimeout

/-- The variable of a setting has a text that can be read as a value. -/
def Given (env : Environment) (s : Setting) (v : s.Value) : Prop :=
  ∃ text, env s.variableName = some text ∧ s.Reads text v

theorem given_iff {s : Setting} {v : s.Value} :
    Given env s v ↔ (env s.variableName).bind s.read? = some v := by
  rw [Option.bind_eq_some_iff]
  exact exists_congr fun text => and_congr_right fun _ => Setting.read?_eq_some_iff.symm

theorem get_override_eq_iff {s : Setting} {v : s.Value} :
    (override env c).get s = v ↔ Given env s v ∨ (c.get s = v ∧ ∀ w, ¬ Given env s w) := by
  rw [get_override]
  cases h : (env s.variableName).bind s.read? with
  | none =>
    have hgiven : ∀ w, ¬ Given env s w := fun w hw => by
      rw [given_iff, h] at hw
      cases hw
    rw [Option.getD_none, or_iff_right (hgiven v), and_iff_left hgiven]
  | some w =>
    have hgiven : Given env s w := given_iff.mpr h
    rw [Option.getD_some, given_iff, h, Option.some_inj,
      or_iff_left fun hnone => hnone.2 w hgiven]

theorem get_override_congr {s : Setting} (henv : env' s.variableName = env s.variableName)
    (hc : c'.get s = c.get s) : (override env' c').get s = (override env c).get s := by
  rw [get_override, get_override, henv, hc]

theorem override_override (env : Environment) (c : Config) :
    override env (override env c) = override env c := by
  refine ext_get fun s => ?_
  rw [get_override, get_override]
  cases (env s.variableName).bind s.read? <;> rfl

theorem forall_not_given_iff {s : Setting} :
    (∀ v, ¬ Given env s v) ↔ ∀ text, env s.variableName = some text → ∀ v, ¬ s.Reads text v := by
  constructor
  · intro h text htext v hv
    exact h v ⟨text, htext, hv⟩
  · rintro h v ⟨text, htext, hv⟩
    exact h text htext v hv

/-! ### The mock prover, no fee and no timeout -/

theorem given_mock_iff :
    Given env .proverMode .mock ↔
      ∃ text, env "VEIL_PROVER_MODE" = some text ∧ SameLetters "mock" text := by
  refine exists_congr fun text => and_congr_right fun _ => ?_
  rw [Setting.Reads, ProverMode.names]
  simp only [List.mem_singleton, exists_eq_left]

theorem forall_not_given_proverMode_iff :
    (∀ mode, ¬ Given env .proverMode mode) ↔
      ∀ text, env "VEIL_PROVER_MODE" = some text →
        ∀ name ∈ ["command", "snarkjs", "mock"], ¬ SameLetters name text := by
  -- the names of the two modes together are the names listed
  have hnames (name : String) :
      name ∈ ["command", "snarkjs", "mock"] ↔ ∃ mode : ProverMode, name ∈ mode.names := by
    constructor
    · intro h
      simp only [List.mem_cons, List.not_mem_nil, or_false] at h
      rcases h with rfl | rfl | rfl
      · exact ⟨.command, by decide⟩
      · exact ⟨.command, by decide⟩
      · exact ⟨.mock, by decide⟩
    · rintro ⟨mode, h⟩
      cases mode with
      | command => exact List.mem_append_left ["mock"] h
      | mock => exact List.mem_append_right ["command", "snarkjs"] h
  rw [forall_not_given_iff]
  refine forall₂_congr fun text _ => ?_
  constructor
  · intro h name hname hsame
    obtain ⟨mode, hmode⟩ := (hnames name).mp hname
    exact h mode ⟨name, hmode, hsame⟩
  · rintro h mode ⟨name, hmode, hsame⟩
    exact h name ((hnames name).mpr ⟨mode, hmode⟩) hsame

theorem not_given_noTimeout : ¬ Given env .proofTimeout none := by
  rintro ⟨text, -, n, hn, -⟩
  cases hn

theorem forall_not_given_proofTimeout_iff :
    (∀ timeout, ¬ Given env .proofTimeout timeout) ↔
      ∀ text, env "VEIL_PROOF_TIMEOUT_SECS" = some text → ∀ n, ¬ WordText text n := by
  rw [forall_not_given_iff]
  refine forall₂_congr fun text _ => ?_
  constructor
  · intro h n hn
    exact h (some n) ⟨n, rfl, hn⟩
  · rintro h _ ⟨n, rfl, hn⟩
    exact h n hn

/-- Every setting becomes what its own variable can be read as, and stays what it was if that is
not set or cannot be read; no two have one variable, and a second time changes nothing.  The mock
prover is chosen by its name only, a fee of zero by a number only, and no text takes a timeout
away. -/
theorem override_exact (env : Environment) (c : Config) :
    (∀ (s : Setting) (v : s.Value),
      (override env c).get s = v ↔ Given env s v ∨ (c.get s = v ∧ ∀ w, ¬ Given env s w)) ∧
      (∀ (s : Setting) (env' : Environment) (c' : Config),
        env' s.variableName = env s.variableName → c'.get s = c.get s →
          (override env' c').get s = (override env c).get s) ∧
      (∀ s s' : Setting, s.variableName = s'.variableName → s = s') ∧
      override env (override env c) = override env c ∧
      ((override env c).proverMode = .mock ↔
        (∃ text, env "VEIL_PROVER_MODE" = some text ∧ SameLetters "mock" text) ∨
          (c.proverMode = .mock ∧ ∀ text, env "VEIL_PROVER_MODE" = some text →
            ∀ name ∈ ["command", "snarkjs", "mock"], ¬ SameLetters name text)) ∧
      ((override env c).feePerByte = 0 ↔
        (∃ text, env "VEIL_FEE_PER_BYTE" = some text ∧ WordText text 0) ∨
          (c.feePerByte = 0 ∧
            ∀ text, env "VEIL_FEE_PER_BYTE" = some text → ∀ n, ¬ WordText text n)) ∧
      ((override env c).proofTimeout = none ↔
        c.proofTimeout = none ∧
          ∀ text, env "VEIL_PROOF_TIMEOUT_SECS" = some text → ∀ n, ¬ WordText text n) := by
  have hmode : (override env c).proverMode = .mock ↔ _ :=
    get_override_eq_iff (s := .proverMode) (v := .mock)
  have hfee : (override env c).feePerByte = 0 ↔ _ :=
    get_override_eq_iff (s := .feePerByte) (v := 0)
  have htimeout : (override env c).proofTimeout = none ↔ _ :=
    get_override_eq_iff (s := .proofTimeout) (v := none)
  refine ⟨fun s v => get_override_eq_iff, fun s env' c' => get_override_congr,
    fun s s' => Setting.variableName_inj, override_override env c, ?_, ?_, ?_⟩
  · rw [hmode, given_mock_iff, forall_not_given_proverMode_iff]
    rfl
  · rw [hfee, forall_not_given_iff]
    rfl
  · rw [htimeout, or_iff_right not_given_noTimeout, forall_not_given_proofTimeout_iff]
    rfl

/-- Texts in three variables that cannot be read. -/
def garbled : Environment
  | "VEIL_PROVER_MODE" => some "moc"
  | "VEIL_FEE_PER_BYTE" => some "1e9"
  | "VEIL_PROOF_TIMEOUT_SECS" => some "-5"
  | _ => none

/-- What cannot be read leaves the prover, the fee and the timeout, and other settings with them. -/
theorem override_exact_garbled :
    (override garbled {}).proverMode ≠ .mock ∧ (override garbled {}).feePerByte ≠ 0 ∧
      (override garbled { proofTimeout := some 600 }).proofTimeout ≠ none ∧
      (garbled "VEIL_CIRCUIT_DIR" = none ∧
        (override (fun _ => none) {}).localDir = (override garbled {}).localDir) := by
  obtain ⟨-, hframe, -, -, hmode, hfee, -⟩ := override_exact garbled {}
  obtain ⟨-, -, -, -, -, -, htimeout⟩ := override_exact garbled { proofTimeout := some 600 }
  refine ⟨fun h => ?_, fun h => ?_, fun h => ?_, rfl, ?_⟩
  · rcases hmode.mp h with ⟨text, htext, hsame⟩ | ⟨hmock, -⟩
    · obtain rfl := Option.some.inj htext
      exact absurd hsame.length_eq (by decide)
    · cases hmock
  · rcases hfee.mp h with ⟨text, htext, hword⟩ | ⟨hzero, -⟩
    · obtain rfl := Option.some.inj htext
      rw [← wordOfText?_eq_some_iff] at hword
      exact absurd hword (by decide)
    · cases hzero
  · cases (htimeout.mp h).1
  · exact hframe .localDir (fun _ => none) {} rfl rfl

end Config

end ShieldedWallet
