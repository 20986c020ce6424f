import Stylebook.Proofs.Identifier.Registry

/-! A registry over many requests. Whatever was asked before, a claim gets the name itself if this was not handed out
    yet, and otherwise the name with the least number that was not; trying one candidate after the other ends there
    (`Seeks`). The registry knows a name exactly if it has handed it out, and it hands out no name twice. -/

namespace Stylebook
namespace Identifier
namespace Registry

/-! ### Trying candidates -/

/-- Candidates are tried until one is free: after `candidate` the base with `number`, then with the numbers that
    follow. They come to an end with `name`. -/
inductive Seeks (r : Registry) (base : Text) : Text → Nat → Text → Prop
  | free {candidate : Text} {number : Nat} (new : r.has candidate = false) : r.Seeks base candidate number candidate
  | taken {candidate name : Text} {number : Nat} (used : r.has candidate = true)
      (later : r.Seeks base (base ++ '_' :: Text.decimal number) (number + 1) name) :
      r.Seeks base candidate number name

theorem numbered_pos (base : Text) {k : Nat} (hk : 1 ≤ k) : numbered base k = base ++ '_' :: Text.decimal k :=
  if_neg (by omega)

section
variable {r : Registry} {base : Text}

theorem Seeks.unique {candidate name other : Text} {number : Nat} (h : r.Seeks base candidate number name)
    (hother : r.Seeks base candidate number other) : name = other := by
  induction h with
  | free new =>
    cases hother with
    | free => rfl
    | taken used => exact absurd (new.symm.trans used) Bool.false_ne_true
  | taken used _ ih =>
    cases hother with
    | free new => exact absurd (new.symm.trans used) Bool.false_ne_true
    | taken _ later => exact ih later

theorem seeks_numbered {k : Nat} (hnew : numbered base k ∉ r.used) (hless : ∀ j < k, numbered base j ∈ r.used)
    {j : Nat} (hj : j ≤ k) : r.Seeks base (numbered base j) (j + 1) (numbered base k) := by
  -- the candidates that are left become fewer
  induction hleft : k - j generalizing j with
  | zero =>
    obtain rfl : j = k := by omega
    exact .free (by simpa [has] using hnew)
  | succ left ih =>
    refine .taken (by simpa [has] using hless j (by omega)) ?_
    rw [← numbered_pos base (Nat.succ_pos j)]
    exact ih (by omega) (by omega)

end

/-- Trying candidates from the base on ends with the name that a claim answers, and with no other. -/
theorem seeks_iff {r : Registry} {base name : Text} : r.Seeks base base 1 name ↔ name = (r.claim base).1 := by
  obtain ⟨k, hname, hnew, hless⟩ := r.claim_least base
  have hseeks : r.Seeks base base 1 (r.claim base).1 := hname ▸ seeks_numbered hnew hless (Nat.zero_le k)
  constructor
  · exact fun h => h.unique hseeks
  · rintro rfl
    exact hseeks

/-! ### Requests -/

/-- What a registry is asked: an identifier for a base, or whether it has handed out a name. -/
inductive Request
  | claim (base : Text)
  | has (name : Text)
  deriving DecidableEq, Repr

inductive Answer
  | handed (name : Text)
  | known (yes : Bool)
  deriving DecidableEq, Repr

def answer (r : Registry) : Request → Answer × Registry
  | .claim base => (.handed (r.claim base).1, (r.claim base).2)
  | .has name => (.known (r.has name), r)

/-- The answers to requests that are made one after the other. -/
def answers (r : Registry) : List Request → List Answer
  | [] => []
  | request :: rest => (r.answer request).1 :: (r.answer request).2.answers rest

/-- The registry after the requests. -/
def after (r : Registry) (requests : List Request) : Registry := requests.foldl (fun r request => (r.answer request).2) r

def Answer.name? : Answer → Option Text
  | .handed name => some name
  | .known _ => none

/-- The names that answers hand out. -/
def given (as : List Answer) : List Text := as.filterMap Answer.name?

/-- What has to be answered once the names `before` were handed out. -/
inductive Fits (before : List Text) : Request → Answer → Prop
  | same {base : Text} (new : base ∉ before) : Fits before (.claim base) (.handed base)
  | numbered {base : Text} {k : Nat} (used : base ∈ before) (pos : 1 ≤ k)
      (new : base ++ '_' :: Text.decimal k ∉ before)
      (least : ∀ j, 1 ≤ j → j < k → base ++ '_' :: Text.decimal j ∈ before) :
      Fits before (.claim base) (.handed (base ++ '_' :: Text.decimal k))
  | known {name : Text} {yes : Bool} (iff : yes = true ↔ name ∈ before) : Fits before (.has name) (.known yes)

/-! ### One request -/

theorem hands_answer (r : Registry) (request : Request) :
    Hands r (given [(r.answer request).1]) (r.answer request).2 := by
  cases request with
  | claim base => exact .claim r base
  | has name => exact .refl r

/-- The answer of a registry fits every list of the names that it has handed out. -/
theorem fits_answer {r : Registry} {before : List Text} (hbefore : ∀ name, name ∈ before ↔ name ∈ r.used)
    (request : Request) : Fits before request (r.answer request).1 := by
  cases request with
  | has name => exact .known (by simp [has, hbefore])
  | claim base =>
    obtain ⟨k, hname, hnew, hless⟩ := r.claim_least base
    show Fits before (.claim base) (.handed (r.claim base).1)
    rw [hname]
    rw [← hbefore] at hnew
    -- the number zero stands for the base alone; any other is the least only if the base is taken
    rcases Nat.eq_zero_or_pos k with rfl | hk
    · exact .same hnew
    · rw [numbered_pos base hk] at hnew ⊢
      refine .numbered ((hbefore base).mpr (hless 0 hk)) hk hnew fun j hj hlt => ?_
      rw [← numbered_pos base hj, hbefore]
      exact hless j hlt

/-! ### Many requests -/

section
variable {r : Registry} {requests : List Request}

theorem hands_answers (r : Registry) (requests : List Request) :
    Hands r (given (r.answers requests)) (r.after requests) := by
  induction requests generalizing r with
  | nil => exact .refl r
  | cons request rest ih =>
    have hcons : given (r.answers (request :: rest)) =
        given [(r.answer request).1] ++ given ((r.answer request).2.answers rest) :=
      List.filterMap_append (l := [(r.answer request).1])
    rw [hcons]
    exact (r.hands_answer request).trans (ih _)

theorem length_answers (r : Registry) (requests : List Request) : (r.answers requests).length = requests.length := by
  induction requests generalizing r with
  | nil => rfl
  | cons request rest ih => exact congrArg (· + 1) (ih _)

theorem answers_take (i : Nat) : r.answers (requests.take i) = (r.answers requests).take i := by
  induction i generalizing r requests with
  | zero => rfl
  | succ i ih =>
    cases requests with
    | nil => rfl
    | cons request rest => exact congrArg ((r.answer request).1 :: ·) ih

/-- Each request is answered by the registry that those before it have left. -/
theorem getElem?_answers {i : Nat} {request : Request} (h : requests[i]? = some request) :
    (r.answers requests)[i]? = some ((r.after (requests.take i)).answer request).1 := by
  induction i generalizing r requests with
  | zero =>
    cases requests with
    | nil => cases h
    | cons first rest =>
      cases h
      rfl
  | succ i ih =>
    cases requests with
    | nil => cases h
    | cons first rest => exact ih h

end

/-- Over any number of requests a registry hands out no name twice. Each claim is answered by the base, if this was
    not handed out before, and otherwise by the base with the least number for which it was not, where trying one
    candidate after the other ends; and a name is known exactly if it was handed out before. -/
theorem answers_history (requests : List Request) :
    (answers {} requests).length = requests.length ∧ (given (answers {} requests)).Nodup ∧
    ∀ i request, requests[i]? = some request → ∃ answer, (answers {} requests)[i]? = some answer ∧
      Fits (given ((answers {} requests).take i)) request answer ∧
      ∀ base, request = .claim base → ∃ name, answer = .handed name ∧
        ∀ last, (after {} (requests.take i)).Seeks base base 1 last ↔ last = name := by
  refine ⟨length_answers {} requests, (hands_answers {} requests).nodup_names, fun i request hi => ?_⟩
  have hbefore : ∀ name, name ∈ given ((answers {} requests).take i) ↔ name ∈ (after {} (requests.take i)).used := by
    intro name
    have hperm := (hands_answers {} (requests.take i)).used
    rw [answers_take, List.append_nil] at hperm
    exact hperm.mem_iff
  refine ⟨_, getElem?_answers hi, fits_answer hbefore request, ?_⟩
  rintro base rfl
  exact ⟨_, rfl, fun last => seeks_iff⟩

/-- A name that is claimed again and again, and between that its own form with a number. -/
def repeatedClaims : List Request :=
  [.claim "a".text, .claim "a".text, .claim "a_1".text, .claim "a".text, .has "a_2".text, .has "b".text]

theorem answers_history_repeated :
    answers {} repeatedClaims = [.handed "a".text, .handed "a_1".text, .handed "a_1_1".text, .handed "a_2".text,
      .known true, .known false] ∧
    (given (answers {} repeatedClaims)).Nodup ∧
    Fits ["a".text, "a_1".text, "a_1_1".text] (.claim "a".text) (.handed "a_2".text) ∧
    (after {} (repeatedClaims.take 3)).Seeks "a".text "a".text 1 "a_2".text := by
  have hanswers : answers {} repeatedClaims = [.handed "a".text, .handed "a_1".text, .handed "a_1_1".text,
      .handed "a_2".text, .known true, .known false] := by decide +kernel
  obtain ⟨-, hnodup, hfits⟩ := answers_history repeatedClaims
  obtain ⟨answer, hanswer, hfit, hseeks⟩ := hfits 3 (.claim "a".text) rfl
  rw [hanswers] at hanswer hfit
  cases hanswer
  obtain ⟨name, hname, hends⟩ := hseeks _ rfl
  cases hname
  exact ⟨hanswers, hnodup, hfit, (hends _).mpr rfl⟩

end Registry
end Identifier
end Stylebook
