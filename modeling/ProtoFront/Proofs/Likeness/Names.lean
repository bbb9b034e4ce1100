import ProtoFront.Parse.Names
import ProtoFront.Proofs.Likeness.Recovery

/-!
# Names side by side
-/

namespace ProtoFront

open ParseState

variable {x : Likeness} {entry other : Pending} {s t : ParseState}

/-! ## Qualified names -/

theorem answers_qualifiedNameFirst (h : Abreast x entry s other t) (tag? : Option NodeKind) :
    Answers x (s.qualifiedNameFirst tag? entry) (t.qualifiedNameFirst tag? other) := by
  rw [qualifiedNameFirst, qualifiedNameFirst, h.kind_eq]
  split
  case isFalse => exact answers_fail h (failsAlike_close tag?) _
  case isTrue hword =>
    have named := h.take (TokenKind.endsStatement_of_isIdentifierLike hword)
    dsimp only
    rw [named.kind_eq]
    split
    case isTrue => exact (named.wait _ _ rfl rfl).answers
    case isFalse => exact (named.close tag?).answers

theorem answers_qualifiedName (h : Abreast x entry s other t) (tag? : Option NodeKind) :
    Answers x (s.qualifiedName tag? entry) (t.qualifiedName tag? other) := by
  have goesOn : s.kind.isIdentifierLike = true → s.kind.endsStatement = false :=
    TokenKind.endsStatement_of_isIdentifierLike
  have single := h.and_following_eq (fun kind => kind != .dot) goesOn
  rw [qualifiedName, qualifiedName, h.kind_eq, single]
  split
  case isTrue hdot => exact answers_qualifiedNameFirst (h.take (by rw [hdot]; rfl)) tag?
  case isFalse =>
    split
    case isTrue => exact (h.addLeaf tag? false).answers
    case isFalse => exact answers_qualifiedNameFirst h tag?

theorem answers_qualifiedNameRest (h : Abreast x entry s other t) (hdot : s.kind = .dot) :
    Answers x s.qualifiedNameRest t.qualifiedNameRest := by
  have dotted := h.take (by rw [hdot]; rfl)
  rw [qualifiedNameRest, qualifiedNameRest]
  dsimp only
  rw [dotted.kind_eq]
  split
  case isFalse => exact answers_fail dotted failsAlike_markEnclosing _
  case isTrue hword =>
    have named := dotted.take (TokenKind.endsStatement_of_isIdentifierLike hword)
    rw [named.kind_eq]
    split
    case isTrue => exact (named.pushGoal _ rfl).answers
    case isFalse => exact named.answers

/-! ## Names of options -/

theorem answers_optionName (h : Abreast x entry s other t) :
    Answers x (s.optionName entry) (t.optionName other) :=
  (h.wait _ _ rfl rfl).answers

theorem answers_optionNameDot (h : Abreast x entry s other t) :
    Answers x s.optionNameDot t.optionNameDot := by
  rw [optionNameDot, optionNameDot, h.kind_eq]
  split
  case isTrue hdot => exact ((h.take (by rw [hdot]; rfl)).pushGoal _ rfl).answers
  case isFalse => exact h.answers

theorem answers_optionNamePart (h : Abreast x entry s other t) :
    Answers x s.optionNamePart t.optionNamePart := by
  rw [optionNamePart, optionNamePart, h.kind_eq]
  split
  case isTrue hword =>
    exact answers_optionNameDot (h.take (TokenKind.endsStatement_of_isIdentifierLike hword))
  case isFalse =>
    split
    case isFalse => exact answers_fail h failsAlike_markEnclosing _
    case isTrue hparen =>
      have opened := h.take (by rw [hparen]; rfl)
      dsimp only
      rw [opened.kind_eq]
      split
      case isTrue => exact ((opened.pushGoal _ rfl).pushGoal _ rfl).answers
      case isFalse => exact answers_fail opened failsAlike_markEnclosing _

/-- A part in parentheses that has failed is followed only through errors. -/
theorem answers_optionNameExtensionEnd (h : Abreast x entry s other t) :
    Answers x (s.optionNameExtensionEnd entry) (t.optionNameExtensionEnd other) := by
  rw [optionNameExtensionEnd, optionNameExtensionEnd, h.entries.failed]
  split
  case isTrue hfailed => exact (h.markEnclosing (h.entries.exact_of_failed hfailed)).answers
  case isFalse =>
    exact answers_expect h failsAlike_markEnclosing rfl fun _ closed => answers_optionNameDot closed

end ProtoFront
