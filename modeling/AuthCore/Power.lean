/-!
# Powers

A power of a number with a natural exponent is the one that is built in. A module may also know
powers in all kinds of algebraic structures, and numbers are such a structure; to it `2 ^ n` still is
what it is to the modules that compute with it.
-/

attribute [default_instance high + 1, instance (high)] instPowNat
