import CompanyRegistry.Store.Identities
import Mathlib.Data.List.Infix

/-!
# Who is a known user

The stages of an authorisation, each with what it accepts: an authorisation text bears a token
(`tokenOf?_eq_some_iff`), the token's claims are inside their window (`Token.decode_inWindow`), and the rule
`active_user` lets through exactly the users that the store knows by name or by number
(`checkRules_activeUser`).
-/

namespace CompanyRegistry

/-- A text bears a token: one leading `Bearer ` may stand before it and blanks around it, and something
is left of it. -/
def Bears (text token : String) : Prop :=
  token ≠ "" ∧ ∃ bare : List Char, token.toList = Text.trim bare ∧
    (text.toList = "Bearer ".toList ++ bare ∨
      ¬ "Bearer ".toList <+: text.toList ∧ text.toList = bare)

namespace Validator

/-- What stands behind one leading `Bearer `, or the whole text without one. -/
theorem bare_eq_iff {text bare : List Char} :
    (if "Bearer ".toList.isPrefixOf text then text.drop 7 else text) = bare ↔
      text = "Bearer ".toList ++ bare ∨ ¬ "Bearer ".toList <+: text ∧ text = bare := by
  by_cases h : "Bearer ".toList <+: text
  · obtain ⟨rest, rfl⟩ := h
    have hdrop : ("Bearer ".toList ++ rest).drop 7 = rest :=
      List.drop_left' (by simp)
    rw [if_pos (List.isPrefixOf_iff_prefix.mpr (List.prefix_append _ _)), hdrop]
    constructor
    · rintro rfl
      exact Or.inl rfl
    · rintro (heq | ⟨hnot, -⟩)
      · exact List.append_cancel_left heq
      · exact absurd (List.prefix_append _ _) hnot
  · rw [if_neg (fun hprefix => h (List.isPrefixOf_iff_prefix.mp hprefix))]
    constructor
    · exact fun heq => Or.inr ⟨h, heq⟩
    · rintro (heq | ⟨-, heq⟩)
      · exact absurd (heq ▸ List.prefix_append _ _) h
      · exact heq

theorem ofList_trim_eq_some_iff {bare : List Char} {token : String} :
    (match Text.trim bare with
      | [] => none
      | t => some (String.ofList t)) = some token ↔
      token ≠ "" ∧ token.toList = Text.trim bare := by
  generalize Text.trim bare = chars
  cases chars with
  | nil => simp
  | cons c chars =>
    simp only [Option.some.injEq]
    constructor
    · rintro rfl
      exact ⟨by simp, String.toList_ofList⟩
    · rintro ⟨-, heq⟩
      rw [← heq, String.ofList_toList]

theorem tokenOf?_eq_some_iff {text token : String} :
    tokenOf? text = some token ↔ Bears text token := by
  refine ofList_trim_eq_some_iff.trans ?_
  constructor
  · rintro ⟨hne, heq⟩
    exact ⟨hne, _, heq, bare_eq_iff.mp rfl⟩
  · rintro ⟨hne, bare, heq, hbare⟩
    exact ⟨hne, heq.trans (congrArg Text.trim (bare_eq_iff.mpr hbare).symm)⟩

end Validator

/-! ### The window of a token -/

/-- A second lies in the window of some claims. -/
def Claims.InWindow (c : Claims) (now : Int) : Prop :=
  c.notBefore.toInt ≤ now ∧ now < c.expires.toInt

theorem Claims.checkWindow_eq_ok_iff {c : Claims} {now : Int} :
    c.checkWindow now = .ok () ↔ c.InWindow now := by
  unfold checkWindow InWindow
  split
  · simp only [reduceCtorEq, false_iff]
    omega
  · split
    · simp only [reduceCtorEq, false_iff]
      omega
    · split
      · simp only [reduceCtorEq, false_iff]
        omega
      · simp only [true_iff]
        omega

/-- Claims that are decoded are inside their window. -/
theorem Token.decode_inWindow {k : Token.Key} {clock now : Int} {token : String} {c : Claims}
    (h : Token.decode k clock now token = .ok c) : c.InWindow now := by
  unfold decode at h
  split at h
  · cases h
  · split at h
    · cases h
    · rename_i hwindow
      cases h
      exact Claims.checkWindow_eq_ok_iff.mp hwindow

/-! ### The rule for users -/

/-- The store has a user with the name or the number of some claims. -/
def Store.Knows (s : Store) (c : Claims) : Prop :=
  ∃ u ∈ s.users, u.username = c.username ∨ u.id = c.id

/-- The groups of the built-in rule, bound to claims. -/
def Rule.activeGroups (c : Claims) : List (List (Comparison Value)) :=
  [[⟨"username", .equal, .text c.username⟩], [⟨"id", .equal, .int c.id⟩]]

theorem Rule.activeUser_bind (c : Claims) :
    activeUser.bind c =
      if c.subject = .user then some ⟨"active_user", ⟨"user", "u"⟩, activeGroups c⟩ else none := by
  unfold Rule.bind
  cases c.subject <;> rfl

namespace Store

theorem satisfiesSome_activeGroups (u : User) (c : Claims) :
    satisfiesSome u (Rule.activeGroups c) =
      .ok (decide (u.username = c.username ∨ u.id = c.id)) := by
  have hname : column u "username" = .ok (.text u.username) := by
    simp [column]
  have hid : column u "id" = .ok (.int u.id) := by
    simp [column]
  by_cases h : u.username = c.username <;> by_cases h' : u.id = c.id <;>
    simp [Rule.activeGroups, satisfiesSome, satisfiesAll, hname, hid, Comparator.holds, h, h']

theorem anyUser_activeGroups (c : Claims) (users : List User) :
    anyUser (Rule.activeGroups c) users =
      .ok (users.any fun u => decide (u.username = c.username ∨ u.id = c.id)) := by
  induction users with
  | nil => rfl
  | cons u users ih =>
    rw [anyUser, satisfiesSome_activeGroups, List.any_cons]
    cases decide (u.username = c.username ∨ u.id = c.id) with
    | true => rfl
    | false => exact ih

/-- The built-in rule asks no more than whether the store knows the bearer, and only of users. -/
theorem checkRules_activeUser (s : Store) (op : Operation) (c : Claims) :
    (c.subject = .user ∧ s.Knows c ∧
      Validator.checkRules s.probe op c [Rule.activeUser] = .ok ()) ∨
    (¬ (c.subject = .user ∧ s.Knows c) ∧
      Validator.checkRules s.probe op c [Rule.activeUser] =
        .error (.denied Rule.activeUser.name op)) := by
  unfold Validator.checkRules
  rw [Rule.activeUser_bind]
  by_cases huser : c.subject = .user
  · have hprobe : s.probe ⟨"active_user", ⟨"user", "u"⟩, Rule.activeGroups c⟩ =
        .ok (s.users.any fun u => decide (u.username = c.username ∨ u.id = c.id)) := by
      rw [probe, if_neg (by simp)]
      exact anyUser_activeGroups c s.users
    have hknows : (s.users.any fun u => decide (u.username = c.username ∨ u.id = c.id)) = true ↔
        s.Knows c := by
      simp [Knows]
    rw [if_pos huser]
    dsimp only
    rw [hprobe]
    by_cases hk : s.Knows c
    · rw [hknows.mpr hk]
      exact Or.inl ⟨huser, hk, rfl⟩
    · rw [Bool.eq_false_iff.mpr (fun htrue => hk (hknows.mp htrue))]
      exact Or.inr ⟨fun h => hk h.2, rfl⟩
  · rw [if_neg huser]
    exact Or.inr ⟨fun h => huser h.1, rfl⟩

end Store

end CompanyRegistry
