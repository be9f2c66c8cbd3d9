import XspliceDiff.Elf
import XspliceDiff.Names
import XspliceDiff.Correlate
import XspliceDiff.Compare
import XspliceDiff.Include
import XspliceDiff.Special
import XspliceDiff.Output
import XspliceDiff.Main
import XspliceDiff.Lemmas.Basic
import XspliceDiff.Lemmas.Names
import XspliceDiff.Lemmas.Special
import XspliceDiff.Lemmas.Correlate
import XspliceDiff.Lemmas.Compare
import XspliceDiff.Lemmas.Include
import XspliceDiff.Lemmas.Closure
import XspliceDiff.Lemmas.Output
import XspliceDiff.Lemmas.Main
import XspliceDiff.Lemmas.Patches
import XspliceDiff.Lemmas.StaticLocal
import XspliceDiff.Lemmas.Emit
import XspliceDiff.Lemmas.Prepare
import XspliceDiff.Lemmas.Ignore
import XspliceDiff.Lemmas.Pipeline
import XspliceDiff.Lemmas.Funcs
import XspliceDiff.Lemmas.Verify
