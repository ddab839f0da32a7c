import Muplar.Common.Bytes
/-!
# The Android runtime — what is registered

`install` registers some six hundred symbols before the guest starts:
each `add` writes a stub and gives its hypercall number a handler. The
calls are listed here as the source makes them, function by function, a
loop over symbols written out. Tables of wrapper libraries are made from
others by the remaining statements. The handlers themselves are not
modelled; the registration stands for its handler.
-/

namespace Muplar

namespace Android

/-- A statement of `install` that writes a stub or a symbol table. -/
inductive Registration
  /-- `add(soname, symbol, nr, handler)` -/
  | add (soname symbol : String) (nr : ℕ)
  /-- an address of the arena that is no stub -/
  | data (soname symbol : String) (offset : ℕ)
  /-- `sym_tables_[dst] = sym_tables_[src]` -/
  | copy (dst src : String)
  /-- each symbol of `src` is assigned in `dst` -/
  | assign (dst src : String)
  /-- each symbol of `src` that `dst` lacks is put there -/
  | emplace (dst src : String)
  /-- `sym_tables_[soname] = {}` -/
  | clear (soname : String)
  deriving DecidableEq

def adds (soname : String) (symbols : List (String × ℕ)) : List Registration :=
  symbols.map fun s => .add soname s.1 s.2

/-- `register_libegl_stubs`. -/
def registerLibeglStubs : List Registration :=
  adds "libEGL.so"
    [("eglGetDisplay", 0x2400), ("eglInitialize", 0x2401), ("eglBindAPI", 0x2402),
     ("eglChooseConfig", 0x2403), ("eglCreateContext", 0x2404),
     ("eglCreateWindowSurface", 0x2405), ("eglCreatePbufferSurface", 0x2406),
     ("eglMakeCurrent", 0x2407), ("eglSwapBuffers", 0x2408), ("eglDestroyContext", 0x2409),
     ("eglDestroySurface", 0x240a), ("eglGetError", 0x240b), ("eglQueryString", 0x240c),
     ("eglSwapInterval", 0x240d), ("eglSurfaceAttrib", 0x2411), ("eglTerminate", 0x240e),
     ("eglReleaseThread", 0x240f), ("eglGetProcAddress", 0x2410)] ++
  [.assign "libGLESv2.so" "libEGL.so"] ++
  adds "libEGL.so"
    [("eglGetConfigs", 0x2412), ("eglGetConfigAttrib", 0x2413), ("eglGetCurrentContext", 0x2414),
     ("eglCreateImage", 0x2415), ("eglDestroyImage", 0x2416), ("eglGetPlatformDisplay", 0x2417),
     ("eglQueryContext", 0x2418)]

/-- `register_libgles_stubs`. -/
def registerLibglesStubs : List Registration :=
  adds "libGLESv2.so"
    [("glGetError", 0x2500), ("glViewport", 0x2501), ("glClear", 0x2502),
     ("glClearColor", 0x2503), ("glClearDepthf", 0x2504), ("glEnable", 0x2505),
     ("glDisable", 0x2506), ("glBlendFunc", 0x2507), ("glBlendFuncSeparate", 0x253f),
     ("glBlendEquationSeparate", 0x254c), ("glDepthFunc", 0x2508), ("glDepthMask", 0x2509),
     ("glCullFace", 0x250a), ("glFrontFace", 0x250b), ("glPolygonOffset", 0x254a),
     ("glScissor", 0x2533), ("glColorMask", 0x2534), ("glPixelStorei", 0x2535),
     ("glActiveTexture", 0x2536), ("glFinish", 0x2531), ("glFlush", 0x2532),
     ("glGenTextures", 0x250c), ("glBindTexture", 0x250d), ("glTexParameteri", 0x250f),
     ("glGenerateMipmap", 0x2549), ("glDeleteTextures", 0x2526), ("glTexImage2D", 0x250e),
     ("glTexSubImage2D", 0x2566), ("glTexStorage2D", 0x253e), ("glTexStorage3D", 0x2556),
     ("glCompressedTexSubImage3D", 0x2547), ("glCompressedTexSubImage2D", 0x2558),
     ("glTexSubImage3D", 0x254f), ("glGenBuffers", 0x2510), ("glBindBuffer", 0x2511),
     ("glBindBufferRange", 0x2563), ("glDeleteBuffers", 0x2527), ("glBufferData", 0x2512),
     ("glBufferSubData", 0x253b), ("glMapBufferRange", 0x2545), ("glUnmapBuffer", 0x2557),
     ("glCreateShader", 0x2513), ("glDeleteShader", 0x2528), ("glCreateProgram", 0x2516),
     ("glDeleteProgram", 0x2529), ("glAttachShader", 0x2517), ("glDetachShader", 0x2565),
     ("glLinkProgram", 0x2518), ("glUseProgram", 0x2519), ("glShaderSource", 0x2514),
     ("glCompileShader", 0x2515), ("glGetShaderiv", 0x2537), ("glGetProgramiv", 0x2538),
     ("glGetShaderInfoLog", 0x2539), ("glGetProgramInfoLog", 0x253a),
     ("glGetAttribLocation", 0x251a), ("glGetUniformLocation", 0x251b),
     ("glEnableVertexAttribArray", 0x251c), ("glDisableVertexAttribArray", 0x2541),
     ("glGenVertexArrays", 0x253d), ("glBindVertexArray", 0x254b),
     ("glDeleteVertexArrays", 0x2553), ("glVertexAttribPointer", 0x251d),
     ("glVertexAttribIPointer", 0x2571), ("glVertexAttrib4f", 0x2570),
     ("glVertexAttribI4ui", 0x2550), ("glDrawArrays", 0x251e), ("glDrawElements", 0x251f),
     ("glDrawRangeElements", 0x253c), ("glBlitFramebuffer", 0x2567), ("glUniform1i", 0x2520),
     ("glUniform1f", 0x2521), ("glUniform4f", 0x2522), ("glUniformBlockBinding", 0x2546),
     ("glGetUniformBlockIndex", 0x256e), ("glSamplerParameterf", 0x2555),
     ("glSamplerParameteri", 0x256f), ("glBindSampler", 0x2564), ("glGenSamplers", 0x256c),
     ("glDeleteSamplers", 0x2559), ("glUniformMatrix4fv", 0x2523), ("glGetIntegerv", 0x2524),
     ("glGetFloatv", 0x256d), ("glGetString", 0x2525), ("glIsEnabled", 0x255b),
     ("glGetStringi", 0x2543), ("glGetVertexAttribiv", 0x2544), ("glClientWaitSync", 0x2540),
     ("glFenceSync", 0x2548), ("glDeleteSync", 0x256a), ("glWaitSync", 0x255d),
     ("glDrawBuffers", 0x255a), ("glReadPixels", 0x255c), ("glClearBufferfv", 0x254d),
     ("glClearBufferfi", 0x2551), ("glClearBufferiv", 0x2552), ("glGenQueries", 0x254e),
     ("glBeginQuery", 0x255e), ("glDeleteQueries", 0x255f), ("glGetQueryObjectuiv", 0x2560),
     ("glHint", 0x2561), ("glInvalidateFramebuffer", 0x2554), ("glEndQuery", 0x2542),
     ("glGenFramebuffers", 0x252a), ("glDeleteFramebuffers", 0x2568),
     ("glBindFramebuffer", 0x252b), ("glFramebufferTexture2D", 0x252c),
     ("glFramebufferTextureLayer", 0x256b), ("glGenRenderbuffers", 0x252d),
     ("glDeleteRenderbuffers", 0x2569), ("glBindRenderbuffer", 0x252e),
     ("glRenderbufferStorage", 0x252f), ("glRenderbufferStorageMultisample", 0x2562),
     ("glFramebufferRenderbuffer", 0x2530)] ++
  [.copy "libGLESv3.so" "libGLESv2.so"]

/-- `register_libc_stubs`. -/
def registerLibcStubs : List Registration :=
  adds "libc.so"
    [("malloc", 0x2000), ("calloc", 0x2002), ("realloc", 0x2003), ("free", 0x2001),
     ("memcpy", 0x2004), ("memmove", 0x2005), ("memset", 0x2006), ("memcmp", 0x2007),
     ("strlen", 0x2008), ("strcmp", 0x2009), ("strncmp", 0x200a), ("strcpy", 0x200b),
     ("strncpy", 0x200c), ("strcat", 0x200d), ("strchr", 0x2091), ("strstr", 0x2092),
     ("strlcpy", 0x20a1), ("strdup", 0x200e), ("strerror", 0x2093), ("printf", 0x2011),
     ("fprintf", 0x204b), ("vfprintf", 0x204c), ("fflush", 0x204d), ("fwrite", 0x204e),
     ("vasprintf", 0x204f), ("snprintf", 0x2010), ("vsnprintf", 0x205e), ("sprintf", 0x200f),
     ("__errno", 0x205c), ("posix_memalign", 0x205d), ("memchr", 0x205f), ("isatty", 0x2060),
     ("fileno", 0x2061), ("getauxval", 0x2065), ("localeconv", 0x2066),
     ("__ctype_get_mb_cur_max", 0x206d), ("fputc", 0x206a), ("getc", 0x206b), ("ungetc", 0x206c),
     ("strtol", 0x2036), ("strtoll", 0x2036), ("strtoul", 0x2036), ("strtoull", 0x2036),
     ("strtod", 0x2037), ("strtof", 0x2037), ("wcslen", 0x2067), ("wmemchr", 0x2068),
     ("wmemcmp", 0x2069), ("__memcpy_chk", 0x208f), ("__read_chk", 0x20a0),
     ("__memmove_chk", 0x206f), ("__strlen_chk", 0x2070), ("__strncpy_chk", 0x2090),
     ("__strncpy_chk2", 0x2071), ("__strrchr_chk", 0x2072), ("__vsnprintf_chk", 0x2073),
     ("islower", 0x2074), ("isupper", 0x2075), ("isxdigit", 0x2076), ("tolower", 0x2077),
     ("toupper", 0x2078), ("iswalpha", 0x2079), ("iswblank", 0x207a), ("iswcntrl", 0x207b),
     ("iswdigit", 0x207c), ("iswlower", 0x207d), ("iswprint", 0x207e), ("iswpunct", 0x207f),
     ("iswspace", 0x2080), ("iswupper", 0x2081), ("iswxdigit", 0x2082), ("towlower", 0x2083),
     ("towupper", 0x2084), ("strcoll", 0x2085), ("strxfrm", 0x2086), ("strftime", 0x2087),
     ("wcscoll", 0x2088), ("wcsxfrm", 0x2089), ("wmemcpy", 0x208a), ("wmemmove", 0x208b),
     ("wmemset", 0x208c), ("prctl", 0x208d), ("__sF", 0x208e), ("__open_2", 0x2099),
     ("mmap", 0x209d), ("mprotect", 0x209f), ("munmap", 0x209b), ("sched_setaffinity", 0x209e),
     ("setpriority", 0x209c), ("btowc", 0x2062), ("closedir", 0x2062), ("fclose", 0x2062),
     ("freelocale", 0x2062), ("fputwc", 0x2062), ("fread", 0x2062), ("fseek", 0x2062),
     ("fseeko", 0x2062), ("ftruncate", 0x2062), ("getwc", 0x2062), ("iswalpha_l", 0x2062),
     ("iswblank_l", 0x2062), ("iswcntrl_l", 0x2062), ("iswdigit_l", 0x2062),
     ("iswlower_l", 0x2062), ("iswprint_l", 0x2062), ("iswpunct_l", 0x2062),
     ("iswspace_l", 0x2062), ("iswupper_l", 0x2062), ("iswxdigit_l", 0x2062), ("mbrlen", 0x2062),
     ("mbrtowc", 0x2062), ("mbsnrtowcs", 0x2062), ("mbsrtowcs", 0x2062), ("mbtowc", 0x2062),
     ("pthread_cond_timedwait", 0x2062), ("pthread_key_delete", 0x2062),
     ("pthread_mutex_trylock", 0x2062), ("pthread_mutexattr_destroy", 0x2062),
     ("pthread_mutexattr_init", 0x2062), ("pthread_mutexattr_settype", 0x2062),
     ("setbuf", 0x2062), ("strcoll_l", 0x2062), ("sscanf", 0x2062), ("strerror_r", 0x2062),
     ("strftime_l", 0x2062), ("strtold", 0x2062), ("strtold_l", 0x2062), ("strtoll_l", 0x2062),
     ("strtoull_l", 0x2062), ("strxfrm_l", 0x2062), ("swprintf", 0x2062), ("towlower_l", 0x2062),
     ("towupper_l", 0x2062), ("ungetwc", 0x2062), ("uselocale", 0x2062), ("vsscanf", 0x2062),
     ("wcrtomb", 0x2062), ("wcscoll_l", 0x2062), ("wcsnrtombs", 0x2062), ("wcstod", 0x2062),
     ("wcstof", 0x2062), ("wcstol", 0x2062), ("wcstold", 0x2062), ("wcstoll", 0x2062),
     ("wcstoul", 0x2062), ("wcstoull", 0x2062), ("wcsxfrm_l", 0x2062), ("wctob", 0x2062),
     ("chdir", 0x2063), ("fchmod", 0x2063), ("fchmodat", 0x2063), ("fstat", 0x2063),
     ("ftello", 0x2063), ("ftruncate", 0x2063), ("ioctl", 0x2063), ("link", 0x2063),
     ("lstat", 0x2063), ("mkdir", 0x2063), ("open", 0x2063), ("openat", 0x2063),
     ("pathconf", 0x2063), ("readlink", 0x2063), ("remove", 0x2063), ("rename", 0x2063),
     ("sendfile", 0x2063), ("stat", 0x2063), ("statvfs", 0x2063), ("symlink", 0x2063),
     ("sysconf", 0x2063), ("truncate", 0x2063), ("unlinkat", 0x2063), ("utimensat", 0x2063),
     ("fdopen", 0x2064), ("fdopendir", 0x2064), ("fopen", 0x2064), ("getcwd", 0x2064),
     ("newlocale", 0x2064), ("opendir", 0x2064), ("readdir", 0x2064), ("realpath", 0x2064),
     ("setlocale", 0x2064), ("syscall", 0x2050), ("openlog", 0x2051), ("syslog", 0x2052),
     ("closelog", 0x2053), ("android_set_abort_message", 0x205b), ("__assert", 0x2054),
     ("__assert2", 0x2055), ("__stack_chk_fail", 0x206e), ("abort", 0x2012), ("exit", 0x2013),
     ("getpid", 0x2030), ("gettid", 0x209a), ("getenv", 0x2031), ("__register_atfork", 0x204a),
     ("pthread_create", 0x2020), ("pthread_join", 0x2021), ("pthread_detach", 0x2048),
     ("pthread_attr_init", 0x2045), ("pthread_attr_destroy", 0x2046),
     ("pthread_attr_setdetachstate", 0x2047), ("pthread_cond_init", 0x2040),
     ("pthread_cond_wait", 0x2041), ("pthread_cond_signal", 0x2042),
     ("pthread_cond_broadcast", 0x2043), ("pthread_cond_destroy", 0x2044),
     ("pthread_self", 0x202a), ("pthread_equal", 0x2094), ("pthread_setname_np", 0x2095),
     ("pthread_mutex_init", 0x2022), ("pthread_mutex_lock", 0x2023),
     ("pthread_mutex_unlock", 0x2024), ("pthread_mutex_destroy", 0x2025),
     ("pthread_rwlock_init", 0x2056), ("pthread_rwlock_rdlock", 0x2057),
     ("pthread_rwlock_wrlock", 0x2058), ("pthread_rwlock_unlock", 0x2059),
     ("pthread_rwlock_destroy", 0x205a), ("pthread_once", 0x2029),
     ("pthread_key_create", 0x2026), ("pthread_getspecific", 0x2027),
     ("pthread_setspecific", 0x2028), ("clock_gettime", 0x2032), ("gettimeofday", 0x2033),
     ("usleep", 0x2034), ("nanosleep", 0x2035), ("atoi", 0x2038), ("atof", 0x2039),
     ("rand", 0x203a), ("srand", 0x203b), ("pipe", 0x203c), ("pipe2", 0x203d), ("read", 0x203e),
     ("write", 0x203f), ("close", 0x2049)] ++
  [.data "libc.so" "__sF" 0x080000, .copy "libm.so" "libc.so"] ++
  adds "libm.so"
    [("acosf", 0x2096), ("asinf", 0x2096), ("atan", 0x2096), ("atanf", 0x2096),
     ("atan2f", 0x2096), ("cosf", 0x2096), ("exp2", 0x2096), ("exp2f", 0x2096), ("expf", 0x2096),
     ("fmod", 0x2096), ("fmodf", 0x2096), ("ilogbf", 0x2096), ("log2f", 0x2096),
     ("log10f", 0x2096), ("logf", 0x2096), ("powf", 0x2096), ("sinf", 0x2096), ("tan", 0x2096),
     ("nextafterf", 0x2096), ("sincos", 0x2097), ("sincosf", 0x2098)] ++
  [.copy "libstdc++.so" "libc.so", .copy "libc++_shared.so" "libc.so",
   .copy "libandroid_support.so" "libc.so", .copy "libc++abi.so" "libc.so"]

/-- `register_liblog_stubs`. -/
def registerLiblogStubs : List Registration :=
  adds "liblog.so"
    [("__android_log_print", 0x2100), ("__android_log_vprint", 0x2103),
     ("__android_log_write", 0x2101), ("__android_log_buf_write", 0x2102)]

/-- `register_libandroid_stubs`. -/
def registerLibandroidStubs : List Registration :=
  adds "libandroid.so"
    [("ALooper_prepare", 0x2200), ("ALooper_acquire", 0x2201), ("ALooper_release", 0x2202),
     ("ALooper_pollOnce", 0x2203), ("ALooper_pollAll", 0x2204), ("ALooper_addFd", 0x2205),
     ("ALooper_removeFd", 0x2206), ("ALooper_wake", 0x2207), ("AAssetManager_fromJava", 0x2210),
     ("AAssetManager_open", 0x2211), ("AAsset_read", 0x2212), ("AAsset_close", 0x2213),
     ("AAsset_getLength", 0x2214), ("AAsset_getLength64", 0x2214),
     ("AAsset_getRemainingLength", 0x2215), ("AAsset_getRemainingLength64", 0x2215),
     ("AAsset_seek", 0x2216), ("AAsset_seek64", 0x2216), ("AInputQueue_attachLooper", 0x2250),
     ("AInputQueue_detachLooper", 0x2251), ("AInputQueue_hasEvents", 0x2252),
     ("AInputQueue_getEvent", 0x2253), ("AInputQueue_preDispatchEvent", 0x2254),
     ("AInputQueue_finishEvent", 0x2255), ("AInputEvent_getType", 0x2260),
     ("AInputEvent_getDeviceId", 0x2261), ("AInputEvent_getSource", 0x2262),
     ("AMotionEvent_getAction", 0x2263), ("AMotionEvent_getX", 0x2266),
     ("AMotionEvent_getY", 0x2267), ("AMotionEvent_getRawX", 0x2268),
     ("AMotionEvent_getRawY", 0x2269), ("AMotionEvent_getPointerCount", 0x226a),
     ("AMotionEvent_getPointerId", 0x226b), ("AMotionEvent_getEventTime", 0x226c),
     ("AMotionEvent_getDownTime", 0x226d), ("AMotionEvent_getPressure", 0x226e),
     ("AMotionEvent_getHistorySize", 0x2280), ("AMotionEvent_getHistoricalEventTime", 0x2281),
     ("AMotionEvent_getHistoricalX", 0x2282), ("AMotionEvent_getHistoricalY", 0x2283),
     ("AMotionEvent_getHistoricalRawX", 0x2284), ("AMotionEvent_getHistoricalRawY", 0x2285),
     ("AMotionEvent_getHistoricalPressure", 0x2286), ("AMotionEvent_getAxisValue", 0x2287),
     ("AMotionEvent_getFlags", 0x2288), ("AMotionEvent_getMetaState", 0x2289),
     ("AMotionEvent_getButtonState", 0x228a), ("AMotionEvent_getEdgeFlags", 0x228b),
     ("AKeyEvent_getAction", 0x2264), ("AKeyEvent_getKeyCode", 0x2265),
     ("ANativeWindow_fromSurface", 0x2238), ("ANativeWindow_acquire", 0x2233),
     ("ANativeWindow_release", 0x2234), ("ANativeWindow_getWidth", 0x2235),
     ("ANativeWindow_getHeight", 0x2236), ("ANativeWindow_getFormat", 0x2237),
     ("ANativeWindow_setBuffersGeometry", 0x2230), ("ANativeWindow_lock", 0x2231),
     ("ANativeWindow_unlockAndPost", 0x2232), ("AChoreographer_getInstance", 0x2220),
     ("AChoreographer_postFrameCallback", 0x2221),
     ("AChoreographer_postFrameCallbackDelayed", 0x2270),
     ("AChoreographer_postFrameCallback64", 0x2271),
     ("AChoreographer_postFrameCallbackDelayed64", 0x2272)] ++
  adds "libc.so"
    [("__system_property_get", 0x2240)] ++
  adds "libandroid.so"
    [("__system_property_get", 0x2240)] ++
  adds "libcutils.so"
    [("property_get", 0x2241)]

/-- `register_libjnigraphics_stubs`. -/
def registerLibjnigraphicsStubs : List Registration :=
  adds "libjnigraphics.so"
    [("AndroidBitmap_getInfo", 0x2290), ("AndroidBitmap_lockPixels", 0x2291),
     ("AndroidBitmap_unlockPixels", 0x2292)]

/-- `register_libdl_stubs`. -/
def registerLibdlStubs : List Registration :=
  adds "libdl.so"
    [("dlopen", 0x2300), ("dlsym", 0x2301), ("dlclose", 0x2302), ("dlerror", 0x2303),
     ("dl_iterate_phdr", 0x2304)] ++
  [.copy "libdl_android.so" "libdl.so"] ++
  adds "libdl_android.so"
    [("android_get_exported_namespace", 0x2305), ("android_create_namespace", 0x2306),
     ("android_link_namespaces", 0x2307)] ++
  [.clear "libnativebridge.so"] ++
  adds "libnativebridge.so"
    [("NativeBridgeIsPathSupported", 0x2308), ("NativeBridgeGetError", 0x2309),
     ("NativeBridgeGetExportedNamespace", 0x230a), ("NativeBridgeCreateNamespace", 0x230b),
     ("NativeBridgeLinkNamespaces", 0x230c), ("NativeBridgeLoadLibraryExt", 0x230d)]

/-- `register_libcxx_stubs`. -/
def registerLibcxxStubs : List Registration :=
  adds "libc++_shared.so"
    [("__cxa_atexit", 0x2600), ("__cxa_finalize", 0x2601), ("__cxa_throw", 0x2602),
     ("__cxa_begin_catch", 0x2603), ("__cxa_end_catch", 0x2604), ("__cxa_rethrow", 0x2605),
     ("__cxa_current_exception_type", 0x2606), ("__gxx_personality_v0", 0x260c),
     ("_Unwind_Resume", 0x260d), ("__cxa_guard_acquire", 0x2607),
     ("__cxa_guard_release", 0x2608), ("__cxa_guard_abort", 0x2609),
     ("__cxa_pure_virtual", 0x260a), ("__cxa_deleted_virtual", 0x260b), ("_Znwm", 0x2610),
     ("_ZnwmRKSt9nothrow_t", 0x2611), ("_Znam", 0x2612), ("_ZdlPv", 0x2613), ("_ZdlPvm", 0x2614),
     ("_ZdaPv", 0x2615), ("_ZSt9terminatev", 0x2620), ("_ZSt15set_terminatePFvvE", 0x2621),
     ("_ZNSt9bad_allocD1Ev", 0x2622), ("_ZNKSt9bad_alloc4whatEv", 0x2623),
     ("__dynamic_cast", 0x2631), ("_ZNSt6__ndk114__shared_count12__add_sharedEv", 0x2632),
     ("_ZNSt6__ndk114__shared_count16__release_sharedEv", 0x2633),
     ("_ZNSt6__ndk119__shared_weak_count12__add_sharedEv", 0x2632),
     ("_ZNSt6__ndk119__shared_weak_count10__add_weakEv", 0x2634),
     ("_ZNSt6__ndk119__shared_weak_count16__release_sharedEv", 0x2635),
     ("_ZNSt6__ndk119__shared_weak_count14__release_weakEv", 0x2636),
     ("_ZNSt6__ndk119__shared_weak_count4lockEv", 0x2637),
     ("_ZNKSt6__ndk119__shared_weak_count13__get_deleterERKSt9type_info", 0x2638),
     ("__cxa_bad_cast", 0x2630)] ++
  adds "libandroid_support.so"
    [("android_getCpuFamily", 0x2641), ("android_getCpuFeatures", 0x2640),
     ("android_getCpuCount", 0x2642)] ++
  [.emplace "libc++abi.so" "libc++_shared.so", .emplace "libunwind.so" "libc++_shared.so",
   .emplace "libandroid_support.so" "libc++_shared.so", .emplace "libc.so" "libc++_shared.so"]

/-- `register_libbinder_stubs`. -/
def registerLibbinderStubs : List Registration :=
  adds "libbinder_ndk.so"
    [("AServiceManager_checkService", 0x2700), ("AServiceManager_getService", 0x2701),
     ("AServiceManager_waitForService", 0x2702), ("AServiceManager_isDeclared", 0x2703),
     ("AServiceManager_addService", 0x2704), ("AIBinder_isRemote", 0x2710),
     ("AIBinder_isAlive", 0x2711), ("AIBinder_ping", 0x2712), ("AIBinder_incStrong", 0x2713),
     ("AIBinder_decStrong", 0x2714), ("AIBinder_debugGetRefCount", 0x2715),
     ("AIBinder_getCallingUid", 0x2716), ("AIBinder_getCallingPid", 0x2717),
     ("AIBinder_isHandlingTransaction", 0x2718), ("AIBinder_dump", 0x2719),
     ("AIBinder_DeathRecipient_new", 0x2768), ("AIBinder_DeathRecipient_setOnUnlinked", 0x2769),
     ("AIBinder_DeathRecipient_delete", 0x276a), ("AIBinder_linkToDeath", 0x271a),
     ("AIBinder_unlinkToDeath", 0x271b), ("__muplar_binder_kill", 0x276b),
     ("AIBinder_Class_define", 0x2750), ("AIBinder_Class_setOnDump", 0x2751),
     ("AIBinder_Class_setTransactionCodeToFunctionNameMap", 0x2752),
     ("AIBinder_Class_getDescriptor", 0x2753), ("AIBinder_Class_getFunctionName", 0x2758),
     ("AIBinder_Class_disableInterfaceTokenHeader", 0x2759), ("AIBinder_new", 0x2754),
     ("AIBinder_associateClass", 0x2755), ("AIBinder_getClass", 0x2756),
     ("AIBinder_getUserData", 0x2757), ("AIBinder_Weak_new", 0x2772),
     ("AIBinder_Weak_delete", 0x2773), ("AIBinder_Weak_promote", 0x2774),
     ("AIBinder_Weak_clone", 0x2778), ("AIBinder_Weak_lt", 0x2779), ("AIBinder_lt", 0x2777),
     ("AIBinder_setExtension", 0x2775), ("AIBinder_getExtension", 0x2776),
     ("AIBinder_prepareTransaction", 0x271c), ("AIBinder_transact", 0x271d),
     ("AParcel_delete", 0x2720), ("AParcel_setDataPosition", 0x2721),
     ("AParcel_getDataPosition", 0x2722), ("AParcel_writeStrongBinder", 0x2723),
     ("AParcel_readStrongBinder", 0x2724), ("AParcel_writeParcelFileDescriptor", 0x272d),
     ("AParcel_readParcelFileDescriptor", 0x272e), ("AParcel_writeStatusHeader", 0x2725),
     ("AParcel_readStatusHeader", 0x2726), ("AParcel_writeString", 0x2727),
     ("AParcel_readString", 0x2728), ("AParcel_writeStringArray", 0x2729),
     ("AParcel_readStringArray", 0x272a), ("AParcel_writeParcelableArray", 0x272b),
     ("AParcel_readParcelableArray", 0x272c), ("AParcel_writeInt32", 0x2730),
     ("AParcel_writeUint32", 0x2731), ("AParcel_writeInt64", 0x2732),
     ("AParcel_writeUint64", 0x2733), ("AParcel_writeFloat", 0x2734),
     ("AParcel_writeDouble", 0x2735), ("AParcel_writeBool", 0x2736),
     ("AParcel_writeChar", 0x2737), ("AParcel_writeByte", 0x2738),
     ("AParcel_writeInt32Array", 0x2739), ("AParcel_readInt32", 0x2740),
     ("AParcel_readUint32", 0x2741), ("AParcel_readInt64", 0x2742),
     ("AParcel_readUint64", 0x2743), ("AParcel_readFloat", 0x2744),
     ("AParcel_readDouble", 0x2745), ("AParcel_readBool", 0x2746), ("AParcel_readChar", 0x2747),
     ("AParcel_readByte", 0x2748), ("AParcel_readInt32Array", 0x2749), ("AStatus_newOk", 0x2760),
     ("AStatus_fromExceptionCode", 0x276c), ("AStatus_fromExceptionCodeWithMessage", 0x276d),
     ("AStatus_fromServiceSpecificError", 0x276e),
     ("AStatus_fromServiceSpecificErrorWithMessage", 0x276f), ("AStatus_fromStatus", 0x2761),
     ("AStatus_isOk", 0x2762), ("AStatus_getExceptionCode", 0x2763),
     ("AStatus_getServiceSpecificError", 0x2764), ("AStatus_getStatus", 0x2765),
     ("AStatus_getMessage", 0x2766), ("AStatus_getDescription", 0x2770),
     ("AStatus_deleteDescription", 0x2771), ("AStatus_delete", 0x2767)]

/-- What `install` registers, in order. -/
def registrations : List Registration :=
  registerLibeglStubs ++ registerLibglesStubs ++ registerLibcStubs ++
    registerLiblogStubs ++
    registerLibandroidStubs ++ registerLibjnigraphicsStubs ++ registerLibdlStubs ++
    registerLibcxxStubs ++ registerLibbinderStubs

/-- The number of a stub that is written. -/
def Registration.number : Registration → Option ℕ
  | .add _ _ nr => some nr
  | _ => none

/-- The numbers of the stubs `install` writes, in order. -/
def staticNumbers : List ℕ :=
  registrations.filterMap Registration.number

/-- Every number that is registered is below those given out later. -/
theorem staticNumbers_range : ∀ nr ∈ staticNumbers, 0x2000 ≤ nr ∧ nr < 0x2800 := by
  decide +kernel

theorem length_staticNumbers : staticNumbers.length = 611 := by
  decide +kernel

end Android

end Muplar
