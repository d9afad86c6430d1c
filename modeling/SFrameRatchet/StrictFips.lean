import SFrameRatchet.Crypto

/-! The strict mode of `strict-fips.ts`: one configuration for the whole process, which
constructors consult. What was constructed before it was enabled stays in use. -/
namespace SFrameRatchet.Fips
open Crypto

/-- What `enableStrictFips` is given; an absent flag counts as set. -/
structure StrictFipsOptions where
  requireSuite5 : Option Bool := none
  forbidSimpleKex : Option Bool := none
  requireNonExtractable : Option Bool := none

structure StrictFips where
  requireSuite5 : Bool
  forbidSimpleKex : Bool
  requireNonExtractable : Bool
  deriving DecidableEq

/-- The active configuration, if there is one. -/
abbrev Active := Option StrictFips

def enableStrictFips (opts : StrictFipsOptions) : Active := some
  { requireSuite5 := opts.requireSuite5.getD true
    forbidSimpleKex := opts.forbidSimpleKex.getD true
    requireNonExtractable := opts.requireNonExtractable.getD true }

def disableStrictFips : Active := none

/-- What a constructor throws. -/
inductive Refusal where
  | fipsModeViolation (message : String) (suite : Option CipherSuite)
  | typeError (message : String)
  | thrown (error : JsError)
  deriving DecidableEq

def assertSuiteAllowed (active : Active) (suite : CipherSuite) : Except Refusal Unit :=
  if !(active.any StrictFips.requireSuite5) then .ok ()
  else if suite ≠ .aes256GcmSha512 then
    .error (.fipsModeViolation (s!"Strict-FIPS mode requires AES_256_GCM_SHA512 (suite 5); got {suite.name}. " ++
      "Use suite 5 or disable strict mode with disableStrictFips().") (some suite))
  else .ok ()

def assertNotSimpleKex (active : Active) : Except Refusal Unit :=
  if !(active.any StrictFips.forbidSimpleKex) then .ok ()
  else .error (.fipsModeViolation ("SimpleKex is not allowed in strict-FIPS mode. " ++
    "Provide a real KEX (MLS, X3DH, etc.) or disable strict mode with disableStrictFips().") none)

@[simp] theorem assertSuiteAllowed_ok {active : Active} {suite : CipherSuite} :
    assertSuiteAllowed active suite = .ok () ↔
      (active.any StrictFips.requireSuite5 = true → suite = .aes256GcmSha512) := by
  unfold assertSuiteAllowed
  cases active.any StrictFips.requireSuite5 <;> cases suite <;> simp

@[simp] theorem assertNotSimpleKex_ok {active : Active} :
    assertNotSimpleKex active = .ok () ↔ active.any StrictFips.forbidSimpleKex = false := by
  unfold assertNotSimpleKex
  cases active.any StrictFips.forbidSimpleKex <;> simp

end SFrameRatchet.Fips
