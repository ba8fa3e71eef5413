import Questionnaire.Command.Flags

/-!
# Flags and files

Flags are read from the left, and what was read does not depend on what follows. So the arguments of
a command fall into flags and the rest, and the flags can be put in front of another rest
(`Arguments.exists_isOptions`).
-/

namespace Questionnaire.Command

theorem Argument.ofBody_ne_last (body : List Char) : Argument.ofBody body ≠ .last := by
  cases body with
  | nil => exact Argument.noConfusion
  | cons c rest =>
    rw [Argument.ofBody]
    split
    · exact Argument.noConfusion
    · dsimp only
      split <;> exact Argument.noConfusion

/-- The flags end without an argument of their own only at two dashes. -/
theorem Argument.eq_of_last {s : String} (h : Argument.ofText s = .last) : s = "--" := by
  unfold Argument.ofText at h
  split at h
  · next hs => exact String.toList_inj.1 hs
  · exact absurd h (ofBody_ne_last _)
  · exact absurd h (ofBody_ne_last _)
  · cases h

namespace Arguments

/-- The flags among some texts: what stands in front of the other arguments. They give the same
values in front of any others. -/
structure IsOptions (flags : List Flag) (given : List (String × FlagValue)) (args : List String)
    (a : Arguments) (options : List String) : Prop where
  split : options ++ a.rest = args ∨ options ++ "--" :: a.rest = args
  read : ∀ rest, parseAfter flags given (options ++ rest) = parseAfter flags a.given rest

variable {flags : List Flag} {given given' : List (String × FlagValue)} {args : List String}
  {a : Arguments}

theorem IsOptions.prepend {front options : List String} (h : IsOptions flags given' args a options)
    (hfront : ∀ rest, parseAfter flags given (front ++ rest) = parseAfter flags given' rest) :
    IsOptions flags given (front ++ args) a (front ++ options) where
  split := by
    simp only [List.append_assoc, List.append_cancel_left_eq]
    exact h.split
  read rest := by
    rw [List.append_assoc, hfront, h.read]

/-- **Flags do not look ahead** to what follows them. -/
theorem exists_isOptions (h : parseAfter flags given args = .ok a) :
    ∃ options, IsOptions flags given args a options := by
  fun_induction parseAfter flags given args with
  | case1 | case2 =>
    cases h
    exact ⟨[], .inl rfl, fun _ ↦ rfl⟩
  | case3 given s rest hs =>
    cases h
    exact ⟨[], .inr (Argument.eq_of_last hs ▸ rfl), fun _ ↦ rfl⟩
  | case4 | case5 | case6 | case9 | case10 => cases h
  | case7 given s name f text rest hf value hvalue hs ih =>
    have hfront : ∀ rest, parseAfter flags given ([s] ++ rest) =
        parseAfter flags ((name, value) :: given) rest := by
      intro rest
      simp only [List.singleton_append, parseAfter, hs, hf, hvalue]
    obtain ⟨options, hoptions⟩ := ih h
    exact ⟨_, hoptions.prepend hfront⟩
  | case8 given s name f rest hf htoggle hs ih =>
    have hfront : ∀ rest, parseAfter flags given ([s] ++ rest) =
        parseAfter flags ((name, .toggle true) :: given) rest := by
      intro rest
      simp only [List.singleton_append, parseAfter, hs, hf, if_pos htoggle]
    obtain ⟨options, hoptions⟩ := ih h
    exact ⟨_, hoptions.prepend hfront⟩
  | case11 given s name f hf htoggle text rest value hvalue hs ih =>
    have hfront : ∀ rest, parseAfter flags given ([s, text] ++ rest) =
        parseAfter flags ((name, value) :: given) rest := by
      intro rest
      rw [List.cons_append, List.singleton_append, parseAfter]
      simp only [hs, hf, if_neg htoggle, hvalue]
    obtain ⟨options, hoptions⟩ := ih h
    exact ⟨_, hoptions.prepend hfront⟩

/-- Two dashes keep what follows from being read as flags. -/
theorem parseAfter_dashes (files : List String) :
    parseAfter flags given ("--" :: files) = .ok { given, rest := files } := by
  have hlast : Argument.ofText "--" = .last := by decide
  rw [parseAfter, hlast]

theorem parseAfter_ordinary {file : String} (h : Argument.ofText file = .ordinary)
    (files : List String) :
    parseAfter flags given (file :: files) = .ok { given, rest := file :: files } := by
  rw [parseAfter, h]

end Arguments

end Questionnaire.Command
