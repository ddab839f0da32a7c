import Muplar.Apk.ZipRoundTrip
import Muplar.Prefix.Accounts
import Muplar.Prefix.Spelling
import Muplar.Apk.LaunchAgreement
import Muplar.Daemon.Catalog
import Muplar.Daemon.Permissions
import Muplar.Android.Imports
import Muplar.Android.InputQueue
import Muplar.Android.BinderRefs
import Muplar.Android.BinderDeath
import Muplar.Android.CStrings
import Muplar.Android.BridgeHeap
import Muplar.Linker.Packed
import Muplar.Linker.Tls
import Muplar.Loader.Dependencies
import Muplar.Runner.Threads
import Muplar.Supervisor.WineServer
import Muplar.Supervisor.Lifecycle
import Muplar.Supervisor.Restarts
import Muplar.Prefix.RegistryReading
import Muplar.Shim.Png
import Muplar.Shim.SaveStack
import Muplar.Jni.Soundness
import Muplar.Jni.Buffers
import Muplar.Framework.Throwing
import Muplar.Framework.Preferences
import Muplar.Framework.EditText
import Muplar.Instance.RunDirectory
import Muplar.Frames.Client
import Muplar.Frames.Pointer
import Muplar.Framework.Packages
import Muplar.Shim.OwnState
import Muplar.Shim.ParcelBounds
import Muplar.Shim.Clipping
import Muplar.Framework.Gestures
import Muplar.Framework.FramePresenter
import Muplar.Daemon.Generations
import Muplar.Daemon.Saving
import Muplar.Android.Assets
import Muplar.Android.Pipes
import Muplar.Android.Transact
import Muplar.Jni.Regions
import Muplar.Android.ParcelValues
import Muplar.Framework.Socket
import Muplar.Runner.JniNames
import Muplar.Runner.JniSignatures
import Muplar.Linker.Names
import Muplar.Linker.TlsLookup
import Muplar.Loader.FindSymbol
import Muplar.Loader.SymbolCount
import Muplar.Apk.LibraryIdentity
import Muplar.Apk.TableLookup
import Muplar.Apk.WalkAccesses
import Muplar.Frames.HostInput
import Muplar.Cli.GuestArguments
import Muplar.Android.ScriptLaunch
import Muplar.Tools.DexMethods
import Muplar.Android.LaunchParameters
import Muplar.Cli.SessionRequest
