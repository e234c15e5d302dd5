/-!
# Sources of random words

Everything random in the library is made of 64-bit words, and a `WordSource` is whatever can hand
out such words one after another.  A source is a value: drawing a word returns the source that
stands behind it.
-/

namespace NelderMead.Random

/-- A type of generators of 64-bit words. -/
class WordSource (γ : Type) where
  /-- The next word and the generator behind it. -/
  next : γ → UInt64 × γ

end NelderMead.Random
