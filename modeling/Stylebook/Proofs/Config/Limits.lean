import Mathlib.Data.List.Basic
import Stylebook.Config.Basic
import Stylebook.Proofs.Data.Display

/-! What comes of a configuration. Either it is refused with a message that names the faulty place, or it is read with a
    number of loads and a time that are above zero; but the sign of a number is looked at before it is made an integer
    or a floating-point number, so that fractions below one become zero loads, what is not a number passes as a time,
    and numbers without an integer, beyond the largest number or too long to be shown end with faults of their own. -/

namespace Stylebook

/-! ### Numbers -/

namespace Binary64

/-- Above zero. -/
def IsPositive (x : Binary64) : Prop := x ≠ .nan ∧ x.isNotPositive = false

theorem le_roundDiv (num den : Nat) : num / den ≤ roundDiv num den := by
  unfold roundDiv
  dsimp only
  split_ifs <;> omega

/-- Scaled down by less than its magnitude, an integer stays at one or above. -/
theorem scaleBinary_le {num : Nat} (h : num ≠ 0) {e : Int} (he : e ≤ num.log2) :
    (scaleBinary num 1 (-e)).2 ≤ (scaleBinary num 1 (-e)).1 := by
  have hlog : 2 ^ num.log2 ≤ num := Nat.log2_self_le h
  simp only [scaleBinary, Nat.pow_eq, Int.neg_neg, Nat.one_mul]
  by_cases hsign : 0 ≤ e
  · have hzero : (-e).toNat = 0 := by omega
    have hexp : e.toNat ≤ num.log2 := by omega
    rw [hzero, Nat.pow_zero, Nat.mul_one]
    exact Nat.le_trans (Nat.pow_le_pow_right (by omega) hexp) hlog
  · have hzero : e.toNat = 0 := by omega
    rw [hzero, Nat.pow_zero]
    exact Nat.mul_pos (Nat.pos_of_ne_zero h) (Nat.pow_pos (by omega))

theorem binaryMagnitude_one {num : Nat} (h : num ≠ 0) : binaryMagnitude num 1 = num.log2 := by
  have hle := @scaleBinary_le num h num.log2 (Int.le_refl _)
  have hone : Nat.log2 1 = 0 := by decide
  simp only [binaryMagnitude, hone, Int.ofNat_eq_natCast, Int.ofNat_zero, Int.sub_zero]
  rw [if_pos hle]

/-- The fraction of an integer does not round to zero. -/
theorem roundDiv_ne_zero {num : Nat} (h : num ≠ 0) {e : Int} (he : e ≤ num.log2) :
    roundDiv (scaleBinary num 1 (-e)).1 (scaleBinary num 1 (-e)).2 ≠ 0 := by
  have hpos : 0 < (scaleBinary num 1 (-e)).2 := by
    simp only [scaleBinary, Nat.pow_eq, Nat.one_mul]
    exact Nat.pow_pos (by omega)
  have hquotient := Nat.div_pos (scaleBinary_le h he) hpos
  have hle := le_roundDiv (scaleBinary num 1 (-e)).1 (scaleBinary num 1 (-e)).2
  omega

theorem ofRatio_isPositive {num : Nat} (h : num ≠ 0) : (ofRatio false num 1).IsPositive := by
  have he : max (binaryMagnitude num 1 - 52) (-1074) ≤ num.log2 := by
    rw [binaryMagnitude_one h]
    omega
  have hround := roundDiv_ne_zero h he
  unfold ofRatio
  rw [if_neg h]
  dsimp only
  split_ifs with hcarry hzero hlarge hlarge
  · exact absurd hzero (by decide)
  · exact ⟨by simp, rfl⟩
  · exact ⟨by simp, rfl⟩
  · exact ⟨by simp, rfl⟩
  · exact ⟨by simp, by simp [isNotPositive, hround]⟩

/-- A positive integer does not become zero. -/
theorem ofInt?_isPositive {n : Int} {x : Binary64} (hn : 0 < n) (h : ofInt? n = some x) : x.IsPositive := by
  have hpos := @ofRatio_isPositive n.natAbs (by omega)
  have hsign : decide (n < 0) = false := decide_eq_false (by omega)
  rw [ofInt?, hsign] at h
  split at h
  · rename_i hfinite
    rw [hfinite] at hpos
    rwa [← Option.some.inj h]
  · cases h

theorem truncate?_nonneg {x : Binary64} {n : Int} (hx : x.isNotPositive = false) (h : x.truncate? = some n) : 0 ≤ n := by
  cases x with
  | nan => cases h
  | infinite negative => cases h
  | finite negative m e =>
    simp only [isNotPositive, Bool.or_eq_false_iff] at hx
    simp only [truncate?, hx.1, Option.some.injEq] at h
    rw [← h]
    exact Int.natCast_nonneg _

end Binary64

namespace Config

/-! ### Faults -/

/-- A fault that the configuration is refused with: the message names the place. -/
def Error.IsRefusal : Error → Prop
  | .section_ _ | .tag _ | .notBoolean _ _ | .notNumber _ _ | .notPositive _ _ => True
  | .infiniteCount | .undefinedCount | .number _ => False

/-- The value of an option in a section. -/
def option? (raw : Entries) (place key : String) : Option Value :=
  (sectionOf raw place).toOption.bind (Value.field? key.text)

/-- The faults that are no refusals, and what in the configuration they come from. -/
inductive Escapes (raw : Entries) : Error → Prop
  | infinite (h : option? raw "loading" "max_concurrent" = some (.float (.infinite false))) : Escapes raw .infiniteCount
  | undefined (h : option? raw "loading" "max_concurrent" = some (.float .nan)) : Escapes raw .undefinedCount
  | large {n : Int} (h : option? raw "loading" "http_timeout" = some (.int n)) (hn : Binary64.ofInt? n = none) :
    Escapes raw (.number .tooLarge)
  | long (h : (Value.map raw).HasLong) : Escapes raw (.number .unwritable)

/-- A result is as `good` says, and a fault is one that the configuration `raw` can have. -/
def Settles {α : Type} (raw : Entries) (good : α → Prop) (x : Except Error α) : Prop :=
  (∃ a, x = .ok a ∧ good a) ∨ ∃ e, x = .error e ∧ (e.IsRefusal ∨ Escapes raw e)

/-- What is too long to be shown in some entries is so in the configuration `raw`. -/
def LongWithin (raw entries : Entries) : Prop := (Value.map entries).HasLong → (Value.map raw).HasLong

section
variable {raw : Entries}

theorem Settles.bind {α β : Type} {good : α → Prop} {better : β → Prop} {x : Except Error α} {f : α → Except Error β}
    (hx : Settles raw good x) (hf : ∀ a, x = .ok a → good a → Settles raw better (f a)) :
    Settles raw better (x >>= f) := by
  rcases hx with ⟨a, rfl, ha⟩ | ⟨e, rfl, he⟩
  · exact hf a rfl ha
  · exact .inr ⟨e, rfl, he⟩

theorem plainText_settles {v : Value} (hlong : v.HasLong → (Value.map raw).HasLong) :
    Settles raw (fun _ => True) (v.plainText.mapError Error.number) := by
  cases hplain : v.plainText with
  | ok t => exact .inl ⟨t, rfl, trivial⟩
  | error e =>
    obtain ⟨rfl, hv⟩ := Value.plainText_error hplain
    exact .inr ⟨_, rfl, .inr (.long (hlong hv))⟩

theorem sectionOf_settles (name : String) : Settles raw (LongWithin raw) (sectionOf raw name) := by
  have hnone : ¬(Value.map []).HasLong := fun h => by
    obtain ⟨w, hw, -⟩ := h.exists_part (by simp)
    cases hw
  unfold sectionOf
  split
  · exact .inl ⟨[], rfl, fun h => absurd h hnone⟩
  · exact .inl ⟨[], rfl, fun h => absurd h hnone⟩
  · rename_i v _ hfield
    split
    · rename_i entries hentries
      exact .inl ⟨entries, rfl, fun h => (h.of_entries? hentries).of_field? hfield⟩
    · exact .inr ⟨_, rfl, .inl trivial⟩

variable {entries : Entries}

/-- The fault of an option is a refusal, unless its value cannot be shown. -/
theorem faultOf_settles {α : Type} {good : α → Prop} (hentries : LongWithin raw entries) {key : Text} {v : Value}
    (hfield : Value.field? key entries = some v) {fault : Text → Error} (hfault : ∀ t, (fault t).IsRefusal) :
    Settles raw good (.error (faultOf fault v)) := by
  refine .inr ⟨_, rfl, ?_⟩
  unfold faultOf
  split
  · exact .inl (hfault _)
  · rename_i e hdisplay
    obtain ⟨rfl, hlong⟩ := Value.displayIn_error hdisplay
    exact .inr (.long (hentries (hlong.of_field? hfield)))

theorem boolean_settles (hentries : LongWithin raw entries) (place key : String) (default : Bool) :
    Settles raw (fun _ => True) (boolean entries place key default) := by
  unfold boolean
  split
  · exact .inl ⟨_, rfl, trivial⟩
  · exact .inl ⟨_, rfl, trivial⟩
  · rename_i v _ hfield
    exact faultOf_settles hentries hfield fun _ => trivial

/-- What an option is when its number passed the test. -/
def Passed (entries : Entries) (key : String) (default : Amount) (a : Amount) : Prop :=
  Value.field? key.text entries = none ∧ a = default ∨
    (∃ n, Value.field? key.text entries = some (.int n) ∧ 0 < n ∧ a = .whole n) ∨
    ∃ x, Value.field? key.text entries = some (.float x) ∧ x.isNotPositive = false ∧ a = .float x

theorem positive_settles (hentries : LongWithin raw entries) (place key : String) (default : Amount) :
    Settles raw (Passed entries key default) (positive entries place key default) := by
  unfold positive
  dsimp only
  split
  · rename_i hfield
    exact .inl ⟨_, rfl, .inl ⟨hfield, rfl⟩⟩
  · rename_i n hfield
    split
    · exact faultOf_settles hentries hfield fun _ => trivial
    · rename_i hpos
      exact .inl ⟨_, rfl, .inr (.inl ⟨n, hfield, by omega, rfl⟩)⟩
  · rename_i x hfield
    split
    · exact faultOf_settles hentries hfield fun _ => trivial
    · rename_i hpos
      exact .inl ⟨_, rfl, .inr (.inr ⟨x, hfield, by simpa using hpos, rfl⟩)⟩
  · rename_i v _ _ hfield
    exact faultOf_settles hentries hfield fun _ => trivial

theorem option?_eq {place : String} (h : sectionOf raw place = .ok entries) (key : String) :
    option? raw place key = Value.field? key.text entries := by
  rw [option?, h]
  rfl

/-- The loads that may run at a time: one at least, or none if a fraction below one was given. -/
def LoadsLimit (raw : Entries) (n : Int) : Prop :=
  1 ≤ n ∨ n = 0 ∧ ∃ x, option? raw "loading" "max_concurrent" = some (.float x) ∧ x.IsPositive ∧ x.truncate? = some 0

theorem toInt_settles (hloading : sectionOf raw "loading" = .ok entries) {n : Int} (hn : 1 ≤ n) {a : Amount}
    (ha : Passed entries "max_concurrent" (.whole n) a) : Settles raw (LoadsLimit raw) a.toInt := by
  rcases ha with ⟨-, rfl⟩ | ⟨m, -, hm, rfl⟩ | ⟨x, hfield, hpos, rfl⟩
  · exact .inl ⟨n, rfl, .inl hn⟩
  · exact .inl ⟨m, rfl, .inl hm⟩
  · rw [← option?_eq hloading] at hfield
    cases x with
    | nan => exact .inr ⟨_, rfl, .inr (.undefined hfield)⟩
    | infinite negative =>
      cases negative with
      | true => cases hpos
      | false => exact .inr ⟨_, rfl, .inr (.infinite hfield)⟩
    | finite negative m e =>
      obtain ⟨k, hk⟩ : ∃ k, Binary64.truncate? (.finite negative m e) = some k := ⟨_, rfl⟩
      have hnonneg := Binary64.truncate?_nonneg hpos hk
      refine .inl ⟨k, by simp only [Amount.toInt, hk], ?_⟩
      by_cases hzero : k = 0
      · subst hzero
        exact .inr ⟨rfl, _, hfield, ⟨by simp, hpos⟩, hk⟩
      · exact .inl (by omega)

/-- The time for a request: above zero, or what is not a number if that was given. -/
def TimeLimit (raw : Entries) (x : Binary64) : Prop :=
  x.IsPositive ∨ x = .nan ∧ option? raw "loading" "http_timeout" = some (.float .nan)

theorem toFloat_settles (hloading : sectionOf raw "loading" = .ok entries) {x : Binary64} (hx : x.IsPositive)
    {a : Amount} (ha : Passed entries "http_timeout" (.float x) a) : Settles raw (TimeLimit raw) a.toFloat := by
  rcases ha with ⟨-, rfl⟩ | ⟨n, hfield, hn, rfl⟩ | ⟨y, hfield, hpos, rfl⟩
  · exact .inl ⟨x, rfl, .inl hx⟩
  · rw [← option?_eq hloading] at hfield
    cases hfloat : Binary64.ofInt? n with
    | some y => exact .inl ⟨y, by simp only [Amount.toFloat, hfloat], .inl (Binary64.ofInt?_isPositive hn hfloat)⟩
    | none => exact .inr ⟨_, by simp only [Amount.toFloat, hfloat], .inr (.large hfield hfloat)⟩
  · rw [← option?_eq hloading] at hfield
    refine .inl ⟨y, rfl, ?_⟩
    by_cases hnan : y = .nan
    · subst hnan
      exact .inr ⟨rfl, hfield⟩
    · exact .inl ⟨hnan, hpos⟩

/-- The limits are the last to be read. -/
theorem limits_settle (hloading : sectionOf raw "loading" = .ok entries) (hentries : LongWithin raw entries)
    {make : Int → Binary64 → Config} (hmake : ∀ n x, (make n x).maxLoads = n ∧ (make n x).httpTimeout = x) :
    Settles raw (fun c => LoadsLimit raw c.maxLoads ∧ TimeLimit raw c.httpTimeout) (do
      let maxLoads ← (← positive entries "loading" "max_concurrent" (.whole ({} : Config).maxLoads)).toInt
      let httpTimeout ← (← positive entries "loading" "http_timeout" (.float ({} : Config).httpTimeout)).toFloat
      return make maxLoads httpTimeout) := by
  refine (positive_settles hentries _ _ _).bind fun a _ ha => ?_
  refine (toInt_settles hloading (by decide) ha).bind fun n _ hn => ?_
  refine (positive_settles hentries _ _ _).bind fun b _ hb => ?_
  refine (toFloat_settles hloading ⟨by decide, by decide⟩ hb).bind fun x _ hx => ?_
  obtain ⟨hloads, htime⟩ := hmake n x
  exact .inl ⟨make n x, rfl, by rwa [hloads], by rwa [htime]⟩

theorem tagChanges_settles (hentries : LongWithin raw entries) : Settles raw (fun _ => True) (tagChanges entries) := by
  induction entries with
  | nil => exact .inl ⟨[], rfl, trivial⟩
  | cons entry entries ih =>
    have hrest : Settles raw (fun _ => True) (tagChanges entries) := ih fun h => by
      obtain ⟨w, hw, hlong⟩ := h.exists_part (by simp)
      exact hentries (hlong.part (List.mem_append_right _ hw))
    rw [tagChanges]
    refine (plainText_settles fun h => hentries (h.part (by simp [Value.parts]))).bind fun name _ _ => ?_
    dsimp only
    split
    · exact hrest
    · split
      · exact hrest.bind fun _ _ _ => .inl ⟨_, rfl, trivial⟩
      · exact .inr ⟨_, rfl, .inl trivial⟩

end

/-- A configuration is read with loads and a time above zero, or refused with the place of a fault in the message,
    but for the numbers whose sign is looked at too early. -/
theorem ofEntries_outcome (raw : Entries) :
    (∃ c, ofEntries raw = .ok c ∧ LoadsLimit raw c.maxLoads ∧ TimeLimit raw c.httpTimeout) ∨
      ∃ e, ofEntries raw = .error e ∧ (e.IsRefusal ∨ Escapes raw e) := by
  show Settles raw (fun c => LoadsLimit raw c.maxLoads ∧ TimeLimit raw c.httpTimeout) (ofEntries raw)
  unfold ofEntries
  refine (sectionOf_settles "ids").bind fun ids _ hids => ?_
  refine (sectionOf_settles "states").bind fun states _ hstates => ?_
  refine (sectionOf_settles "loading").bind fun loading hloading hlong => ?_
  refine (sectionOf_settles "tags").bind fun tags _ htags => ?_
  refine (tagChanges_settles htags).bind fun tags _ _ => ?_
  refine (boolean_settles hids _ _ _).bind fun _ _ _ => ?_
  refine (boolean_settles hids _ _ _).bind fun _ _ _ => ?_
  refine (boolean_settles id _ _ _).bind fun _ _ _ => ?_
  refine (boolean_settles hstates _ _ _).bind fun _ _ _ => ?_
  dsimp only
  split
  · rename_i v hglue
    refine (plainText_settles fun h => hstates (h.of_field? hglue)).bind fun glue _ _ => ?_
    exact limits_settle hloading hlong fun _ _ => ⟨rfl, rfl⟩
  · exact limits_settle hloading hlong fun _ _ => ⟨rfl, rfl⟩

/-- A configuration of one option of the loading. -/
def loadingOption (key : String) (v : Value) : Entries :=
  [(.str (Text.toUnits "loading".text), .map [(.str (Text.toUnits key.text), v)])]

/-- Half a load is none; an endless or undefined number of loads is a fault that is no refusal; a time that is not a
    number is taken. -/
theorem ofEntries_sign_first :
    (∃ c, ofEntries (loadingOption "max_concurrent" (.float (.ofRatio false 1 2))) = .ok c ∧ c.maxLoads = 0) ∧
      ofEntries (loadingOption "max_concurrent" (.float (.infinite false))) = .error .infiniteCount ∧
      ofEntries (loadingOption "max_concurrent" (.float .nan)) = .error .undefinedCount ∧
      (∃ c, ofEntries (loadingOption "http_timeout" (.float .nan)) = .ok c ∧ c.httpTimeout = .nan) :=
  ⟨⟨_, rfl, rfl⟩, rfl, rfl, ⟨_, rfl, rfl⟩⟩

end Config

end Stylebook
