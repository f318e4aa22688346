import Mathlib.Data.Set.Basic

/-! Tokens with signed claims. Whoever has seen some of them may keep them, take
them apart and put strings together from them, but has not got the key. -/

set_option autoImplicit false

namespace AgenticEnterprise.Library

universe u v

/-- A token that was signed verifies with its claims. Others may verify with the
same claims: a signature can be written in more than one way. -/
structure SignedTokens (Token : Type u) (Claims : Type v) where
  sign : Claims → Token
  verified : Token → Option Claims
  verified_sign : ∀ claims, verified (sign claims) = some claims

namespace SignedTokens

variable {Token : Type u} {Claims : Type v} (tokens : SignedTokens Token Claims)

/-- What can be made of tokens without the key. Claims that no token seen so far
verifies with cannot be had that way. -/
structure Derivation where
  derive : Set Token → Set Token
  unforgeable : ∀ {seen token claims}, token ∈ derive seen →
    tokens.verified token = some claims → ∃ known ∈ seen, tokens.verified known = some claims

/-- Everything that a derivation can allow. -/
def strongest : tokens.Derivation where
  derive seen :=
    {token | ∀ claims, tokens.verified token = some claims →
      ∃ known ∈ seen, tokens.verified known = some claims}
  unforgeable derived verified := derived _ verified

variable {tokens}

/-- Where every token seen was signed by the issuer, so were the claims of a derived
token. -/
theorem Derivation.signed (derivation : tokens.Derivation) (issued : Claims → Prop)
    {seen : Set Token} (own : ∀ token ∈ seen, ∃ claims, issued claims ∧ token = tokens.sign claims)
    {token : Token} {claims : Claims} (derived : token ∈ derivation.derive seen)
    (verified : tokens.verified token = some claims) : issued claims := by
  obtain ⟨known, member, same⟩ := derivation.unforgeable derived verified
  obtain ⟨first, signed, rfl⟩ := own known member
  rw [tokens.verified_sign] at same
  obtain rfl := Option.some.inj same
  exact signed

end SignedTokens

end AgenticEnterprise.Library
