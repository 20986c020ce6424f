import Mathlib.Data.List.Basic
import Stylebook.Command.Request
import Stylebook.Proofs.Basic
import Stylebook.Proofs.Text.Lines

/-! An output path that is given to a command line without one changes nothing else of what is asked for, wherever it
    stands among the arguments and also if it comes from the environment. -/

namespace Stylebook
namespace Command

/-! ### Tokens -/

/-- How tokens are sorted, one kind of token after the other. -/
inductive Sorts (s : Signature) : Given → List Text → Given → Prop
  | done (g : Given) : Sorts s g [] g
  | literal (g : Given) (rest : List Text) : Sorts s g ("--".text :: rest) { g with literal := rest }
  | loose {g h : Given} {t : Text} {rest : List Text} (ht : t ≠ "--".text)
      (hnone : ∀ name value, optionParts? t = some (name, value) →
        knows (s.argument :: s.options) name = false ∧ flag? s name = none)
      (hrest : Sorts s { g with loose := g.loose ++ [t] } rest h) : Sorts s g (t :: rest) h
  | option {g g₁ h : Given} {t name v : Text} {rest : List Text} (ht : t ≠ "--".text)
      (hparts : optionParts? t = some (name, some v)) (hknown : knows (s.argument :: s.options) name = true)
      (hput : g.put name v = .ok g₁) (hrest : Sorts s g₁ rest h) : Sorts s g (t :: rest) h
  | apart {g g₁ h : Given} {t name v : Text} {rest : List Text} (ht : t ≠ "--".text)
      (hparts : optionParts? t = some (name, none)) (hknown : knows (s.argument :: s.options) name = true)
      (hvalue : isOptionLike v = false) (hput : g.put name v = .ok g₁) (hrest : Sorts s g₁ rest h) :
      Sorts s g (t :: v :: rest) h
  | flag {g g₁ h : Given} {t name base v : Text} {value : Option Text} {on : Bool} {rest : List Text}
      (ht : t ≠ "--".text) (hparts : optionParts? t = some (name, value))
      (hknown : knows (s.argument :: s.options) name = false) (hflag : flag? s name = some (base, on))
      (hvalue : flagValue on value = .ok v) (hput : g.put base v = .ok g₁) (hrest : Sorts s g₁ rest h) :
      Sorts s g (t :: rest) h

variable {s : Signature}

section
variable {g g₁ : Given} {t name v : Text}

theorem sortTokens_loose (ht : t ≠ "--".text) (hnone : ∀ name value, optionParts? t = some (name, value) →
      knows (s.argument :: s.options) name = false ∧ flag? s name = none) (rest : List Text) :
    sortTokens s g (t :: rest) = sortTokens s { g with loose := g.loose ++ [t] } rest := by
  rw [sortTokens.eq_def]
  cases hparts : optionParts? t with
  | none => simp only [if_neg ht, hparts]
  | some parts =>
    obtain ⟨hknown, hflag⟩ := hnone parts.1 parts.2 hparts
    simp only [if_neg ht, hparts, hknown, hflag, Bool.false_eq_true, if_false]

theorem sortTokens_option (ht : t ≠ "--".text) (hparts : optionParts? t = some (name, some v))
    (hknown : knows (s.argument :: s.options) name = true) (hput : g.put name v = .ok g₁) (rest : List Text) :
    sortTokens s g (t :: rest) = sortTokens s g₁ rest := by
  rw [sortTokens.eq_def]
  simp only [if_neg ht, hparts, hknown, if_true, hput]
  rfl

theorem sortTokens_apart (ht : t ≠ "--".text) (hparts : optionParts? t = some (name, none))
    (hknown : knows (s.argument :: s.options) name = true) (hvalue : isOptionLike v = false)
    (hput : g.put name v = .ok g₁) (rest : List Text) :
    sortTokens s g (t :: v :: rest) = sortTokens s g₁ rest := by
  rw [sortTokens.eq_def]
  simp only [if_neg ht, hparts, hknown, if_true, hput, hvalue, Bool.false_eq_true, if_false]
  rfl

theorem sortTokens_flag {base : Text} {value : Option Text} {on : Bool} (ht : t ≠ "--".text)
    (hparts : optionParts? t = some (name, value)) (hknown : knows (s.argument :: s.options) name = false)
    (hflag : flag? s name = some (base, on)) (hvalue : flagValue on value = .ok v) (hput : g.put base v = .ok g₁)
    (rest : List Text) : sortTokens s g (t :: rest) = sortTokens s g₁ rest := by
  rw [sortTokens.eq_def]
  simp only [if_neg ht, hparts, hknown, hflag, hvalue, Bool.false_eq_true, if_false]
  show (g.put base v >>= fun g₁ => sortTokens s g₁ rest) = _
  rw [hput]
  rfl

end

/-- Whole arguments in front of two dashes are sorted on their own. -/
theorem Sorts.append {g h : Given} {front : List Text} (hsorts : Sorts s g front h) (hopen : "--".text ∉ front)
    (back : List Text) : sortTokens s g (front ++ back) = sortTokens s h back := by
  induction hsorts with
  | done g => rfl
  | literal g rest => exact absurd List.mem_cons_self hopen
  | loose ht hnone _ ih =>
    rw [List.cons_append, sortTokens_loose ht hnone]
    exact ih fun hmem => hopen (List.mem_cons_of_mem _ hmem)
  | option ht hparts hknown hput _ ih =>
    rw [List.cons_append, sortTokens_option ht hparts hknown hput]
    exact ih fun hmem => hopen (List.mem_cons_of_mem _ hmem)
  | apart ht hparts hknown hvalue hput _ ih =>
    rw [List.cons_append, List.cons_append, sortTokens_apart ht hparts hknown hvalue hput]
    exact ih fun hmem => hopen (List.mem_cons_of_mem _ (List.mem_cons_of_mem _ hmem))
  | flag ht hparts hknown hflag hvalue hput _ ih =>
    rw [List.cons_append, sortTokens_flag ht hparts hknown hflag hvalue hput]
    exact ih fun hmem => hopen (List.mem_cons_of_mem _ hmem)

/-! ### An output path in addition -/

theorem put_eq_ok {g g₁ : Given} {name v : Text} :
    g.put name v = .ok g₁ ↔ g.values.lookup name = none ∧ g₁ = { g with values := (name, v) :: g.values } := by
  unfold Given.put
  cases hlookup : g.values.lookup name with
  | none => simp [eq_comm]
  | some w => simp

theorem lookup_of_put {g g₁ : Given} {other w name v : Text} (hput : g.put other w = .ok g₁)
    (hname : g.values.lookup name = some v) : g₁.values.lookup name = some v := by
  obtain ⟨hnone, rfl⟩ := put_eq_ok.mp hput
  have hne : (name == other) = false := beq_false_of_ne fun heq => by
    rw [heq, hnone] at hname
    cases hname
  rw [List.lookup_cons, hne]
  exact hname

/-- What has been given stays. -/
theorem Sorts.keeps {g h : Given} {tokens : List Text} (hsorts : Sorts s g tokens h) {name v : Text}
    (hname : g.values.lookup name = some v) : h.values.lookup name = some v := by
  induction hsorts with
  | done g => exact hname
  | literal g rest => exact hname
  | loose _ _ _ ih => exact ih hname
  | option _ _ _ hput _ ih => exact ih (lookup_of_put hput hname)
  | apart _ _ _ _ hput _ ih => exact ih (lookup_of_put hput hname)
  | flag _ _ _ _ _ hput _ ih => exact ih (lookup_of_put hput hname)

/-- The same is given twice, but the second time with the output `p`. -/
structure MoreGiven (p : Text) (g g' : Given) : Prop where
  loose : g'.loose = g.loose
  literal : g'.literal = g.literal
  output : g'.values.lookup "output".text = some p
  others : ∀ name, name ≠ "output".text → g'.values.lookup name = g.values.lookup name

theorem MoreGiven.put {p : Text} {g g' g₁ h : Given} (hmore : MoreGiven p g g') {name v : Text} {rest : List Text}
    (hput : g.put name v = .ok g₁) (hrest : Sorts s g₁ rest h) (hnone : h.values.lookup "output".text = none) :
    ∃ g₁', g'.put name v = .ok g₁' ∧ MoreGiven p g₁ g₁' := by
  obtain ⟨hname, rfl⟩ := put_eq_ok.mp hput
  -- What is given stays to the end, where there is no output.
  have hne : name ≠ "output".text := by
    rintro rfl
    rw [hrest.keeps List.lookup_cons_self] at hnone
    cases hnone
  refine ⟨_, put_eq_ok.mpr ⟨(hmore.others name hne).trans hname, rfl⟩, hmore.loose, hmore.literal, ?_, ?_⟩
  · rw [List.lookup_cons, beq_false_of_ne hne.symm]
    exact hmore.output
  · intro other hother
    simp only [List.lookup_cons, hmore.others other hother]

/-- Tokens that give no output are sorted the same with an output. -/
theorem Sorts.more {p : Text} {g g' h : Given} {tokens : List Text} (hsorts : Sorts s g tokens h)
    (hnone : h.values.lookup "output".text = none) (hmore : MoreGiven p g g') :
    ∃ h', sortTokens s g' tokens = .ok h' ∧ MoreGiven p h h' := by
  induction hsorts generalizing g' with
  | done g => exact ⟨g', rfl, hmore⟩
  | literal g rest =>
    refine ⟨{ g' with literal := rest }, ?_, hmore.loose, rfl, hmore.output, hmore.others⟩
    rw [sortTokens, if_pos rfl]
  | loose ht hloose _ ih =>
    rw [sortTokens_loose ht hloose]
    exact ih hnone ⟨by simp only [hmore.loose], hmore.literal, hmore.output, hmore.others⟩
  | option ht hparts hknown hput hrest ih =>
    obtain ⟨g₁', hput', hmore⟩ := hmore.put hput hrest hnone
    rw [sortTokens_option ht hparts hknown hput']
    exact ih hnone hmore
  | apart ht hparts hknown hvalue hput hrest ih =>
    obtain ⟨g₁', hput', hmore⟩ := hmore.put hput hrest hnone
    rw [sortTokens_apart ht hparts hknown hvalue hput']
    exact ih hnone hmore
  | flag ht hparts hknown hflag hvalue hput hrest ih =>
    obtain ⟨g₁', hput', hmore⟩ := hmore.put hput hrest hnone
    rw [sortTokens_flag ht hparts hknown hflag hvalue hput']
    exact ih hnone hmore

theorem readTokens_eq_ok {env : Environment} {tokens : List Text} {argument : Text} {g : Given} :
    readTokens env buildSignature tokens = .ok (argument, g) ↔ sortTokens buildSignature {} tokens = .ok g ∧
      ∃ named left, takeArgument buildSignature g = .ok (named, left) ∧
        (∀ v, valueOf? env g "verbose" = some v → (truth? v).isSome = true) ∧
        named.or (env.lookup (variableName "root".text)) = some argument ∧
        refuse (left ++ literalLeft buildSignature g) = .ok () := by
  unfold readTokens
  constructor
  · intro h
    obtain ⟨g', hsort, h⟩ := ok_of_bind h
    obtain ⟨taken, htaken, h⟩ := ok_of_bind h
    obtain ⟨_, hflags, h⟩ := ok_of_bind h
    cases hnamed : taken.1.or (env.lookup (variableName buildSignature.argument.text)) with
    | none =>
      simp only [hnamed] at h
      cases h
    | some a =>
      simp only [hnamed] at h
      obtain ⟨_, ha, h⟩ := ok_of_bind h
      obtain ⟨_, hrefuse, h⟩ := ok_of_bind h
      cases ha
      cases h
      refine ⟨hsort, taken.1, taken.2, htaken, fun v hv => ?_, hnamed, hrefuse⟩
      rw [buildSignature, List.forIn_cons] at hflags
      simp only [hv] at hflags
      cases htruth : truth? v with
      | some b => rfl
      | none =>
        rw [htruth] at hflags
        cases hflags
  · rintro ⟨hsort, named, left, htaken, hflags, hnamed, hrefuse⟩
    have hnamed' : named.or (env.lookup (variableName buildSignature.argument.text)) = some argument := hnamed
    have hnames : buildSignature.flags = ["verbose"] := rfl
    simp only [hsort, htaken, hnamed', hrefuse, hnames, List.forIn_cons, List.forIn_nil, bind, Except.bind, pure,
      Except.pure]
    cases hverbose : valueOf? env g "verbose" with
    | none => rfl
    | some v =>
      have htruth := hflags v hverbose
      simp only [Option.isNone_eq_false_iff.mpr htruth, Bool.false_eq_true, if_false]

theorem parse_build {env : Environment} {tokens : List Text} {r : Request} :
    parse env ("build".text :: tokens) = .ok r ↔ ∃ root g, readTokens env buildSignature tokens = .ok (root, g) ∧
      r = .build root ((valueOf? env g "config").map Path.ofText) ((valueOf? env g "output").map Path.ofText)
        (((valueOf? env g "verbose").bind truth?).getD false) := by
  constructor
  · intro h
    obtain ⟨read, hread, h⟩ := ok_of_bind h
    exact ⟨read.1, read.2, hread, (Except.ok.inj h).symm⟩
  · rintro ⟨root, g, hread, rfl⟩
    simp only [parse, hread, if_pos]
    rfl

/-- Where tokens and variables say the same but for the output, the request is the same but for the output. -/
theorem parse_of_same {env env' : Environment} {tokens tokens' : List Text} {g g' : Given} {p : Text}
    (hsort : sortTokens buildSignature {} tokens = .ok g) (hsort' : sortTokens buildSignature {} tokens' = .ok g')
    (hloose : g'.loose = g.loose) (hliteral : g'.literal = g.literal)
    (hvalues : ∀ name, name ≠ "output".text → g'.values.lookup name = g.values.lookup name)
    (hvariables : ∀ name, name ≠ "INPUT_OUTPUT".text → env'.lookup name = env.lookup name)
    (houtput : valueOf? env' g' "output" = some p) {root : Text} {config : Option Path} {verbose : Bool}
    (h : parse env ("build".text :: tokens) = .ok (.build root config none verbose)) :
    parse env' ("build".text :: tokens') = .ok (.build root config (some (Path.ofText p)) verbose) := by
  have hroot : g'.values.lookup buildSignature.argument.text = g.values.lookup buildSignature.argument.text :=
    hvalues _ (by decide)
  have hvalue (name : String) (hname : name.text ≠ "output".text) (hvariable : variableName name.text ≠ "INPUT_OUTPUT".text) :
      valueOf? env' g' name = valueOf? env g name := by
    rw [valueOf?, valueOf?, hvalues _ hname, hvariables _ hvariable]
  have hconfig := hvalue "config" (by decide) (by decide)
  have hverbose := hvalue "verbose" (by decide) (by decide)
  obtain ⟨_, _, hread, heq⟩ := parse_build.mp h
  obtain ⟨hsorted, named, left, htaken, hflags, hnamed, hrefuse⟩ := readTokens_eq_ok.mp hread
  cases hsort.symm.trans hsorted
  simp only [Request.build.injEq] at heq
  obtain ⟨rfl, rfl, -, rfl⟩ := heq
  refine parse_build.mpr ⟨root, g', readTokens_eq_ok.mpr ⟨hsort', named, left, ?_, ?_, ?_, ?_⟩, ?_⟩
  · rw [takeArgument, hroot, hloose, hliteral]
    exact htaken
  · rw [hverbose]
    exact hflags
  · rw [hvariables _ (by decide)]
    exact hnamed
  · rw [literalLeft, hroot, hloose, hliteral]
    exact hrefuse
  · rw [hconfig, houtput, hverbose]
    rfl

theorem MoreGiven.parse {env : Environment} {tokens tokens' : List Text} {g g' : Given} {p : Text}
    (hmore : MoreGiven p g g') (hsort : sortTokens buildSignature {} tokens = .ok g)
    (hsort' : sortTokens buildSignature {} tokens' = .ok g') {root : Text} {config : Option Path} {verbose : Bool}
    (h : parse env ("build".text :: tokens) = .ok (.build root config none verbose)) :
    parse env ("build".text :: tokens') = .ok (.build root config (some (Path.ofText p)) verbose) :=
  parse_of_same hsort hsort' hmore.loose hmore.literal hmore.others (fun _ _ => rfl) (by rw [valueOf?, hmore.output]) h

end Command
end Stylebook
