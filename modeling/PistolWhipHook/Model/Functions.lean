/-!
# The function pointers of `il2cpp_functions`

`class il2cpp_functions` declares one static pointer for each function of the
library's API, and `Init` assigns them one after another, each from the
symbol its own line names. Both lists are kept as the source has them: the
declarations in the order of the header, and the assignments in the order of
`Init`, with the symbols as they are spelled there.
-/

namespace PistolWhipHook

/-- The declared function pointers. -/
inductive Fn where
  | init
  | initUtf16
  | shutdown
  | setConfigDir
  | setDataDir
  | setTempDir
  | setCommandlineArguments
  | setCommandlineArgumentsUtf16
  | setConfigUtf16
  | setConfig
  | setMemoryCallbacks
  | getCorlib
  | addInternalCall
  | resolveIcall
  | alloc
  | free
  | arrayClassGet
  | arrayLength
  | arrayGetByteLength
  | arrayNew
  | arrayNewSpecific
  | arrayNewFull
  | boundedArrayClassGet
  | arrayElementSize
  | assemblyGetImage
  | classEnumBasetype
  | classIsGeneric
  | classIsInflated
  | classIsAssignableFrom
  | classIsSubclassOf
  | classHasParent
  | classFromIl2cppType
  | classFromName
  | classFromSystemType
  | classGetElementClass
  | classGetEvents
  | classGetFields
  | classGetNestedTypes
  | classGetInterfaces
  | classGetProperties
  | classGetPropertyFromName
  | classGetFieldFromName
  | classGetMethods
  | classGetMethodFromName
  | classGetName
  | classGetNamespace
  | classGetParent
  | classGetDeclaringType
  | classInstanceSize
  | classNumFields
  | classIsValuetype
  | classValueSize
  | classIsBlittable
  | classGetFlags
  | classIsAbstract
  | classIsInterface
  | classArrayElementSize
  | classFromType
  | classGetType
  | classGetTypeToken
  | classHasAttribute
  | classHasReferences
  | classIsEnum
  | classGetImage
  | classGetAssemblyname
  | classGetRank
  | classGetBitmapSize
  | classGetBitmap
  | statsDumpToFile
  | statsGetValue
  | domainGet
  | domainAssemblyOpen
  | domainGetAssemblies
  | exceptionFromNameMsg
  | getExceptionArgumentNull
  | formatException
  | formatStackTrace
  | unhandledException
  | fieldGetFlags
  | fieldGetName
  | fieldGetParent
  | fieldGetOffset
  | fieldGetType
  | fieldGetValue
  | fieldGetValueObject
  | fieldHasAttribute
  | fieldSetValue
  | fieldStaticGetValue
  | fieldStaticSetValue
  | fieldSetValueObject
  | gcCollect
  | gcCollectALittle
  | gcDisable
  | gcEnable
  | gcIsDisabled
  | gcGetUsedSize
  | gcGetHeapSize
  | gcWbarrierSetField
  | gchandleNew
  | gchandleNewWeakref
  | gchandleGetTarget
  | gchandleFree
  | unityLivenessCalculationBegin
  | unityLivenessCalculationEnd
  | unityLivenessCalculationFromRoot
  | unityLivenessCalculationFromStatics
  | methodGetReturnType
  | methodGetDeclaringType
  | methodGetName
  | methodGetFromReflection
  | methodGetObject
  | methodIsGeneric
  | methodIsInflated
  | methodIsInstance
  | methodGetParamCount
  | methodGetParam
  | methodGetClass
  | methodHasAttribute
  | methodGetFlags
  | methodGetToken
  | methodGetParamName
  | profilerInstall
  | profilerSetEvents
  | profilerInstallEnterLeave
  | profilerInstallAllocation
  | profilerInstallGc
  | profilerInstallFileio
  | profilerInstallThread
  | propertyGetFlags
  | propertyGetGetMethod
  | propertyGetSetMethod
  | propertyGetName
  | propertyGetParent
  | objectGetClass
  | objectGetSize
  | objectGetVirtualMethod
  | objectNew
  | objectUnbox
  | valueBox
  | monitorEnter
  | monitorTryEnter
  | monitorExit
  | monitorPulse
  | monitorPulseAll
  | monitorWait
  | monitorTryWait
  | runtimeInvoke
  | runtimeInvokeConvertArgs
  | runtimeClassInit
  | runtimeObjectInit
  | runtimeObjectInitException
  | runtimeUnhandledExceptionPolicySet
  | stringLength
  | stringChars
  | stringNew
  | stringNewLen
  | stringNewUtf16
  | stringNewWrapper
  | stringIntern
  | stringIsInterned
  | threadCurrent
  | threadAttach
  | threadDetach
  | threadGetAllAttachedThreads
  | isVmThread
  | currentThreadWalkFrameStack
  | threadWalkFrameStack
  | currentThreadGetTopFrame
  | threadGetTopFrame
  | currentThreadGetFrameAt
  | threadGetFrameAt
  | currentThreadGetStackDepth
  | threadGetStackDepth
  | typeGetObject
  | typeGetType
  | typeGetClassOrElementClass
  | typeGetName
  | typeIsByref
  | typeGetAttrs
  | typeEquals
  | typeGetAssemblyQualifiedName
  | imageGetAssembly
  | imageGetName
  | imageGetFilename
  | imageGetEntryPoint
  | imageGetClassCount
  | imageGetClass
  | captureMemorySnapshot
  | freeCapturedMemorySnapshot
  | setFindPluginCallback
  | registerLogCallback
  | debuggerSetAgentOptions
  | isDebuggerAttached
  | unityInstallUnitytlsInterface
  | customAttrsFromClass
  | customAttrsFromMethod
  | customAttrsGetAttr
  | customAttrsHasAttr
  | customAttrsConstruct
  | customAttrsFree
  | classGetTypeConst
  | classGetNameConst
deriving DecidableEq

/-- The name a pointer is declared under. -/
def Fn.name : Fn → String
  | .init => "init"
  | .initUtf16 => "init_utf16"
  | .shutdown => "shutdown"
  | .setConfigDir => "set_config_dir"
  | .setDataDir => "set_data_dir"
  | .setTempDir => "set_temp_dir"
  | .setCommandlineArguments => "set_commandline_arguments"
  | .setCommandlineArgumentsUtf16 => "set_commandline_arguments_utf16"
  | .setConfigUtf16 => "set_config_utf16"
  | .setConfig => "set_config"
  | .setMemoryCallbacks => "set_memory_callbacks"
  | .getCorlib => "get_corlib"
  | .addInternalCall => "add_internal_call"
  | .resolveIcall => "resolve_icall"
  | .alloc => "alloc"
  | .free => "free"
  | .arrayClassGet => "array_class_get"
  | .arrayLength => "array_length"
  | .arrayGetByteLength => "array_get_byte_length"
  | .arrayNew => "array_new"
  | .arrayNewSpecific => "array_new_specific"
  | .arrayNewFull => "array_new_full"
  | .boundedArrayClassGet => "bounded_array_class_get"
  | .arrayElementSize => "array_element_size"
  | .assemblyGetImage => "assembly_get_image"
  | .classEnumBasetype => "class_enum_basetype"
  | .classIsGeneric => "class_is_generic"
  | .classIsInflated => "class_is_inflated"
  | .classIsAssignableFrom => "class_is_assignable_from"
  | .classIsSubclassOf => "class_is_subclass_of"
  | .classHasParent => "class_has_parent"
  | .classFromIl2cppType => "class_from_il2cpp_type"
  | .classFromName => "class_from_name"
  | .classFromSystemType => "class_from_system_type"
  | .classGetElementClass => "class_get_element_class"
  | .classGetEvents => "class_get_events"
  | .classGetFields => "class_get_fields"
  | .classGetNestedTypes => "class_get_nested_types"
  | .classGetInterfaces => "class_get_interfaces"
  | .classGetProperties => "class_get_properties"
  | .classGetPropertyFromName => "class_get_property_from_name"
  | .classGetFieldFromName => "class_get_field_from_name"
  | .classGetMethods => "class_get_methods"
  | .classGetMethodFromName => "class_get_method_from_name"
  | .classGetName => "class_get_name"
  | .classGetNamespace => "class_get_namespace"
  | .classGetParent => "class_get_parent"
  | .classGetDeclaringType => "class_get_declaring_type"
  | .classInstanceSize => "class_instance_size"
  | .classNumFields => "class_num_fields"
  | .classIsValuetype => "class_is_valuetype"
  | .classValueSize => "class_value_size"
  | .classIsBlittable => "class_is_blittable"
  | .classGetFlags => "class_get_flags"
  | .classIsAbstract => "class_is_abstract"
  | .classIsInterface => "class_is_interface"
  | .classArrayElementSize => "class_array_element_size"
  | .classFromType => "class_from_type"
  | .classGetType => "class_get_type"
  | .classGetTypeToken => "class_get_type_token"
  | .classHasAttribute => "class_has_attribute"
  | .classHasReferences => "class_has_references"
  | .classIsEnum => "class_is_enum"
  | .classGetImage => "class_get_image"
  | .classGetAssemblyname => "class_get_assemblyname"
  | .classGetRank => "class_get_rank"
  | .classGetBitmapSize => "class_get_bitmap_size"
  | .classGetBitmap => "class_get_bitmap"
  | .statsDumpToFile => "stats_dump_to_file"
  | .statsGetValue => "stats_get_value"
  | .domainGet => "domain_get"
  | .domainAssemblyOpen => "domain_assembly_open"
  | .domainGetAssemblies => "domain_get_assemblies"
  | .exceptionFromNameMsg => "exception_from_name_msg"
  | .getExceptionArgumentNull => "get_exception_argument_null"
  | .formatException => "format_exception"
  | .formatStackTrace => "format_stack_trace"
  | .unhandledException => "unhandled_exception"
  | .fieldGetFlags => "field_get_flags"
  | .fieldGetName => "field_get_name"
  | .fieldGetParent => "field_get_parent"
  | .fieldGetOffset => "field_get_offset"
  | .fieldGetType => "field_get_type"
  | .fieldGetValue => "field_get_value"
  | .fieldGetValueObject => "field_get_value_object"
  | .fieldHasAttribute => "field_has_attribute"
  | .fieldSetValue => "field_set_value"
  | .fieldStaticGetValue => "field_static_get_value"
  | .fieldStaticSetValue => "field_static_set_value"
  | .fieldSetValueObject => "field_set_value_object"
  | .gcCollect => "gc_collect"
  | .gcCollectALittle => "gc_collect_a_little"
  | .gcDisable => "gc_disable"
  | .gcEnable => "gc_enable"
  | .gcIsDisabled => "gc_is_disabled"
  | .gcGetUsedSize => "gc_get_used_size"
  | .gcGetHeapSize => "gc_get_heap_size"
  | .gcWbarrierSetField => "gc_wbarrier_set_field"
  | .gchandleNew => "gchandle_new"
  | .gchandleNewWeakref => "gchandle_new_weakref"
  | .gchandleGetTarget => "gchandle_get_target"
  | .gchandleFree => "gchandle_free"
  | .unityLivenessCalculationBegin => "unity_liveness_calculation_begin"
  | .unityLivenessCalculationEnd => "unity_liveness_calculation_end"
  | .unityLivenessCalculationFromRoot => "unity_liveness_calculation_from_root"
  | .unityLivenessCalculationFromStatics =>
      "unity_liveness_calculation_from_statics"
  | .methodGetReturnType => "method_get_return_type"
  | .methodGetDeclaringType => "method_get_declaring_type"
  | .methodGetName => "method_get_name"
  | .methodGetFromReflection => "method_get_from_reflection"
  | .methodGetObject => "method_get_object"
  | .methodIsGeneric => "method_is_generic"
  | .methodIsInflated => "method_is_inflated"
  | .methodIsInstance => "method_is_instance"
  | .methodGetParamCount => "method_get_param_count"
  | .methodGetParam => "method_get_param"
  | .methodGetClass => "method_get_class"
  | .methodHasAttribute => "method_has_attribute"
  | .methodGetFlags => "method_get_flags"
  | .methodGetToken => "method_get_token"
  | .methodGetParamName => "method_get_param_name"
  | .profilerInstall => "profiler_install"
  | .profilerSetEvents => "profiler_set_events"
  | .profilerInstallEnterLeave => "profiler_install_enter_leave"
  | .profilerInstallAllocation => "profiler_install_allocation"
  | .profilerInstallGc => "profiler_install_gc"
  | .profilerInstallFileio => "profiler_install_fileio"
  | .profilerInstallThread => "profiler_install_thread"
  | .propertyGetFlags => "property_get_flags"
  | .propertyGetGetMethod => "property_get_get_method"
  | .propertyGetSetMethod => "property_get_set_method"
  | .propertyGetName => "property_get_name"
  | .propertyGetParent => "property_get_parent"
  | .objectGetClass => "object_get_class"
  | .objectGetSize => "object_get_size"
  | .objectGetVirtualMethod => "object_get_virtual_method"
  | .objectNew => "object_new"
  | .objectUnbox => "object_unbox"
  | .valueBox => "value_box"
  | .monitorEnter => "monitor_enter"
  | .monitorTryEnter => "monitor_try_enter"
  | .monitorExit => "monitor_exit"
  | .monitorPulse => "monitor_pulse"
  | .monitorPulseAll => "monitor_pulse_all"
  | .monitorWait => "monitor_wait"
  | .monitorTryWait => "monitor_try_wait"
  | .runtimeInvoke => "runtime_invoke"
  | .runtimeInvokeConvertArgs => "runtime_invoke_convert_args"
  | .runtimeClassInit => "runtime_class_init"
  | .runtimeObjectInit => "runtime_object_init"
  | .runtimeObjectInitException => "runtime_object_init_exception"
  | .runtimeUnhandledExceptionPolicySet => "runtime_unhandled_exception_policy_set"
  | .stringLength => "string_length"
  | .stringChars => "string_chars"
  | .stringNew => "string_new"
  | .stringNewLen => "string_new_len"
  | .stringNewUtf16 => "string_new_utf16"
  | .stringNewWrapper => "string_new_wrapper"
  | .stringIntern => "string_intern"
  | .stringIsInterned => "string_is_interned"
  | .threadCurrent => "thread_current"
  | .threadAttach => "thread_attach"
  | .threadDetach => "thread_detach"
  | .threadGetAllAttachedThreads => "thread_get_all_attached_threads"
  | .isVmThread => "is_vm_thread"
  | .currentThreadWalkFrameStack => "current_thread_walk_frame_stack"
  | .threadWalkFrameStack => "thread_walk_frame_stack"
  | .currentThreadGetTopFrame => "current_thread_get_top_frame"
  | .threadGetTopFrame => "thread_get_top_frame"
  | .currentThreadGetFrameAt => "current_thread_get_frame_at"
  | .threadGetFrameAt => "thread_get_frame_at"
  | .currentThreadGetStackDepth => "current_thread_get_stack_depth"
  | .threadGetStackDepth => "thread_get_stack_depth"
  | .typeGetObject => "type_get_object"
  | .typeGetType => "type_get_type"
  | .typeGetClassOrElementClass => "type_get_class_or_element_class"
  | .typeGetName => "type_get_name"
  | .typeIsByref => "type_is_byref"
  | .typeGetAttrs => "type_get_attrs"
  | .typeEquals => "type_equals"
  | .typeGetAssemblyQualifiedName => "type_get_assembly_qualified_name"
  | .imageGetAssembly => "image_get_assembly"
  | .imageGetName => "image_get_name"
  | .imageGetFilename => "image_get_filename"
  | .imageGetEntryPoint => "image_get_entry_point"
  | .imageGetClassCount => "image_get_class_count"
  | .imageGetClass => "image_get_class"
  | .captureMemorySnapshot => "capture_memory_snapshot"
  | .freeCapturedMemorySnapshot => "free_captured_memory_snapshot"
  | .setFindPluginCallback => "set_find_plugin_callback"
  | .registerLogCallback => "register_log_callback"
  | .debuggerSetAgentOptions => "debugger_set_agent_options"
  | .isDebuggerAttached => "is_debugger_attached"
  | .unityInstallUnitytlsInterface => "unity_install_unitytls_interface"
  | .customAttrsFromClass => "custom_attrs_from_class"
  | .customAttrsFromMethod => "custom_attrs_from_method"
  | .customAttrsGetAttr => "custom_attrs_get_attr"
  | .customAttrsHasAttr => "custom_attrs_has_attr"
  | .customAttrsConstruct => "custom_attrs_construct"
  | .customAttrsFree => "custom_attrs_free"
  | .classGetTypeConst => "class_get_type_const"
  | .classGetNameConst => "class_get_name_const"

/-- `*(void**)(&f) = dlsym(imagehandle, symbol)`, line by line. -/
def initTable : List (Fn × String) :=
  [(.init, "il2cpp_init"),
   (.initUtf16, "il2cpp_init_utf16"),
   (.shutdown, "il2cpp_shutdown"),
   (.setConfigDir, "il2cpp_set_config_dir"),
   (.setDataDir, "il2cpp_set_data_dir"),
   (.setTempDir, "il2cpp_set_temp_dir"),
   (.setCommandlineArguments, "il2cpp_set_commandline_arguments"),
   (.setCommandlineArgumentsUtf16, "il2cpp_set_commandline_arguments_utf16"),
   (.setConfigUtf16, "il2cpp_set_config_utf16"),
   (.setConfig, "il2cpp_set_config"),
   (.setMemoryCallbacks, "il2cpp_set_memory_callbacks"),
   (.getCorlib, "il2cpp_get_corlib"),
   (.addInternalCall, "il2cpp_add_internal_call"),
   (.resolveIcall, "il2cpp_resolve_icall"),
   (.alloc, "il2cpp_alloc"),
   (.free, "il2cpp_free"),
   (.arrayClassGet, "il2cpp_array_class_get"),
   (.arrayLength, "il2cpp_array_length"),
   (.arrayGetByteLength, "il2cpp_array_get_byte_length"),
   (.arrayNew, "il2cpp_array_new"),
   (.arrayNewSpecific, "il2cpp_array_new_specific"),
   (.arrayNewFull, "il2cpp_array_new_full"),
   (.boundedArrayClassGet, "il2cpp_bounded_array_class_get"),
   (.arrayElementSize, "il2cpp_array_element_size"),
   (.assemblyGetImage, "il2cpp_assembly_get_image"),
   (.classEnumBasetype, "il2cpp_class_enum_basetype"),
   (.classIsGeneric, "il2cpp_class_is_generic"),
   (.classIsInflated, "il2cpp_class_is_inflated"),
   (.classIsAssignableFrom, "il2cpp_class_is_assignable_from"),
   (.classIsSubclassOf, "il2cpp_class_is_subclass_of"),
   (.classHasParent, "il2cpp_class_has_parent"),
   (.classFromIl2cppType, "il2cpp_class_from_il2cpp_type"),
   (.classFromName, "il2cpp_class_from_name"),
   (.classFromSystemType, "il2cpp_class_from_system_type"),
   (.classGetElementClass, "il2cpp_class_get_element_class"),
   (.classGetEvents, "il2cpp_class_get_events"),
   (.classGetFields, "il2cpp_class_get_fields"),
   (.classGetNestedTypes, "il2cpp_class_get_nested_types"),
   (.classGetInterfaces, "il2cpp_class_get_interfaces"),
   (.classGetProperties, "il2cpp_class_get_properties"),
   (.classGetPropertyFromName, "il2cpp_class_get_property_from_name"),
   (.classGetFieldFromName, "il2cpp_class_get_field_from_name"),
   (.classGetMethods, "il2cpp_class_get_methods"),
   (.classGetMethodFromName, "il2cpp_class_get_method_from_name"),
   (.classGetName, "il2cpp_class_get_name"),
   (.classGetNamespace, "il2cpp_class_get_namespace"),
   (.classGetParent, "il2cpp_class_get_parent"),
   (.classGetDeclaringType, "il2cpp_class_get_declaring_type"),
   (.classInstanceSize, "il2cpp_class_instance_size"),
   (.classNumFields, "il2cpp_class_num_fields"),
   (.classIsValuetype, "il2cpp_class_is_valuetype"),
   (.classValueSize, "il2cpp_class_value_size"),
   (.classIsBlittable, "il2cpp_class_is_blittable"),
   (.classGetFlags, "il2cpp_class_get_flags"),
   (.classIsAbstract, "il2cpp_class_is_abstract"),
   (.classIsInterface, "il2cpp_class_is_interface"),
   (.classArrayElementSize, "il2cpp_class_array_element_size"),
   (.classFromType, "il2cpp_class_from_type"),
   (.classGetType, "il2cpp_class_get_type"),
   (.classGetTypeToken, "il2cpp_class_get_type_token"),
   (.classHasAttribute, "il2cpp_class_has_attribute"),
   (.classHasReferences, "il2cpp_class_has_references"),
   (.classIsEnum, "il2cpp_class_is_enum"),
   (.classGetImage, "il2cpp_class_get_image"),
   (.classGetAssemblyname, "il2cpp_class_get_assemblyname"),
   (.classGetRank, "il2cpp_class_get_rank"),
   (.classGetBitmapSize, "il2cpp_class_get_bitmap_size"),
   (.classGetBitmap, "il2cpp_class_get_bitmap"),
   (.statsDumpToFile, "il2cpp_stats_dump_to_file"),
   (.statsGetValue, "il2cpp_stats_get_value"),
   (.domainGet, "il2cpp_domain_get"),
   (.domainAssemblyOpen, "il2cpp_domain_assembly_open"),
   (.domainGetAssemblies, "il2cpp_domain_get_assemblies"),
   (.exceptionFromNameMsg, "il2cpp_exception_from_name_msg"),
   (.getExceptionArgumentNull, "il2cpp_get_exception_argument_null"),
   (.formatException, "il2cpp_format_exception"),
   (.formatStackTrace, "il2cpp_format_stack_trace"),
   (.unhandledException, "il2cpp_unhandled_exception"),
   (.fieldGetFlags, "il2cpp_field_get_flags"),
   (.fieldGetName, "il2cpp_field_get_name"),
   (.fieldGetParent, "il2cpp_field_get_parent"),
   (.fieldGetOffset, "il2cpp_field_get_offset"),
   (.fieldGetType, "il2cpp_field_get_type"),
   (.fieldGetValue, "il2cpp_field_get_value"),
   (.fieldGetValueObject, "il2cpp_field_get_value_object"),
   (.fieldHasAttribute, "il2cpp_field_has_attribute"),
   (.fieldSetValue, "il2cpp_field_set_value"),
   (.fieldStaticGetValue, "il2cpp_field_static_get_value"),
   (.fieldStaticSetValue, "il2cpp_field_static_set_value"),
   (.fieldSetValueObject, "il2cpp_field_set_value_object"),
   (.gcCollect, "il2cpp_gc_collect"),
   (.gcCollectALittle, "il2cpp_gc_collect_a_little"),
   (.gcDisable, "il2cpp_gc_disable"),
   (.gcEnable, "il2cpp_gc_enable"),
   (.gcIsDisabled, "il2cpp_gc_is_disabled"),
   (.gcGetUsedSize, "il2cpp_gc_get_used_size"),
   (.gcGetHeapSize, "il2cpp_gc_get_heap_size"),
   (.gcWbarrierSetField, "il2cpp_gc_wbarrier_set_field"),
   (.gchandleNew, "il2cpp_gchandle_new"),
   (.gchandleNewWeakref, "il2cpp_gchandle_new_weakref"),
   (.gchandleGetTarget, "il2cpp_gchandle_get_target "),
   (.gchandleFree, "il2cpp_gchandle_free"),
   (.unityLivenessCalculationBegin, "il2cpp_unity_liveness_calculation_begin"),
   (.unityLivenessCalculationEnd, "il2cpp_unity_liveness_calculation_end"),
   (.unityLivenessCalculationFromRoot,
     "il2cpp_unity_liveness_calculation_from_root"),
   (.unityLivenessCalculationFromStatics,
     "il2cpp_unity_liveness_calculation_from_statics"),
   (.methodGetReturnType, "il2cpp_method_get_return_type"),
   (.methodGetDeclaringType, "il2cpp_method_get_declaring_type"),
   (.methodGetName, "il2cpp_method_get_name"),
   (.methodGetFromReflection, "il2cpp_method_get_from_reflection"),
   (.methodGetObject, "il2cpp_method_get_object"),
   (.methodIsGeneric, "il2cpp_method_is_generic"),
   (.methodIsInflated, "il2cpp_method_is_inflated"),
   (.methodIsInstance, "il2cpp_method_is_instance"),
   (.methodGetParamCount, "il2cpp_method_get_param_count"),
   (.methodGetParam, "il2cpp_method_get_param"),
   (.methodGetClass, "il2cpp_method_get_class"),
   (.methodHasAttribute, "il2cpp_method_has_attribute"),
   (.methodGetFlags, "il2cpp_method_get_flags"),
   (.methodGetToken, "il2cpp_method_get_token"),
   (.methodGetParamName, "il2cpp_method_get_param_name"),
   (.profilerInstall, "il2cpp_profiler_install"),
   (.profilerSetEvents, "il2cpp_profiler_set_events"),
   (.profilerInstallEnterLeave, "il2cpp_profiler_install_enter_leave"),
   (.profilerInstallAllocation, "il2cpp_profiler_install_allocation"),
   (.profilerInstallGc, "il2cpp_profiler_install_gc"),
   (.profilerInstallFileio, "il2cpp_profiler_install_fileio"),
   (.profilerInstallThread, "il2cpp_profiler_install_thread"),
   (.propertyGetFlags, "il2cpp_property_get_flags"),
   (.propertyGetGetMethod, "il2cpp_property_get_get_method"),
   (.propertyGetSetMethod, "il2cpp_property_get_set_method"),
   (.propertyGetName, "il2cpp_property_get_name"),
   (.propertyGetParent, "il2cpp_property_get_parent"),
   (.objectGetClass, "il2cpp_object_get_class"),
   (.objectGetSize, "il2cpp_object_get_size"),
   (.objectGetVirtualMethod, "il2cpp_object_get_virtual_method"),
   (.objectNew, "il2cpp_object_new"),
   (.objectUnbox, "il2cpp_object_unbox"),
   (.valueBox, "il2cpp_value_box"),
   (.monitorEnter, "il2cpp_monitor_enter"),
   (.monitorTryEnter, "il2cpp_monitor_try_enter"),
   (.monitorExit, "il2cpp_monitor_exit"),
   (.monitorPulse, "il2cpp_monitor_pulse"),
   (.monitorPulseAll, "il2cpp_monitor_pulse_all"),
   (.monitorWait, "il2cpp_monitor_wait"),
   (.monitorTryWait, "il2cpp_monitor_try_wait"),
   (.runtimeInvoke, "il2cpp_runtime_invoke"),
   (.runtimeInvokeConvertArgs, "il2cpp_runtime_invoke_convert_args"),
   (.runtimeClassInit, "il2cpp_runtime_class_init"),
   (.runtimeObjectInit, "il2cpp_runtime_object_init"),
   (.runtimeObjectInitException, "il2cpp_runtime_object_init_exception"),
   (.runtimeUnhandledExceptionPolicySet,
     "il2cpp_runtime_unhandled_exception_policy_set"),
   (.stringLength, "il2cpp_string_length"),
   (.stringChars, "il2cpp_string_chars"),
   (.stringNew, "il2cpp_string_new"),
   (.stringNewLen, "il2cpp_string_new_len"),
   (.stringNewUtf16, "il2cpp_string_new_utf16"),
   (.stringNewWrapper, "il2cpp_string_new_wrapper"),
   (.stringIntern, "il2cpp_string_intern"),
   (.stringIsInterned, "il2cpp_string_is_interned"),
   (.threadCurrent, "il2cpp_thread_current"),
   (.threadAttach, "il2cpp_thread_attach"),
   (.threadDetach, "il2cpp_thread_detach"),
   (.threadGetAllAttachedThreads, "il2cpp_thread_get_all_attached_threads"),
   (.isVmThread, "il2cpp_is_vm_thread"),
   (.currentThreadWalkFrameStack, "il2cpp_current_thread_walk_frame_stack"),
   (.threadWalkFrameStack, "il2cpp_thread_walk_frame_stack"),
   (.currentThreadGetTopFrame, "il2cpp_current_thread_get_top_frame"),
   (.threadGetTopFrame, "il2cpp_thread_get_top_frame"),
   (.currentThreadGetFrameAt, "il2cpp_current_thread_get_frame_at"),
   (.threadGetFrameAt, "il2cpp_thread_get_frame_at"),
   (.currentThreadGetStackDepth, "il2cpp_current_thread_get_stack_depth"),
   (.threadGetStackDepth, "il2cpp_thread_get_stack_depth"),
   (.typeGetObject, "il2cpp_type_get_object"),
   (.typeGetType, "il2cpp_type_get_type"),
   (.typeGetClassOrElementClass, "il2cpp_type_get_class_or_element_class"),
   (.typeGetName, "il2cpp_type_get_name"),
   (.typeIsByref, "il2cpp_type_is_byref"),
   (.typeGetAttrs, "il2cpp_type_get_attrs"),
   (.typeEquals, "il2cpp_type_equals"),
   (.typeGetAssemblyQualifiedName, "il2cpp_type_get_assembly_qualified_name"),
   (.imageGetAssembly, "il2cpp_image_get_assembly"),
   (.imageGetName, "il2cpp_image_get_name"),
   (.imageGetFilename, "il2cpp_image_get_filename"),
   (.imageGetEntryPoint, "il2cpp_image_get_entry_point"),
   (.imageGetClassCount, "il2cpp_image_get_class_count"),
   (.imageGetClass, "il2cpp_image_get_class"),
   (.captureMemorySnapshot, "il2cpp_capture_memory_snapshot"),
   (.freeCapturedMemorySnapshot, "il2cpp_free_captured_memory_snapshot"),
   (.setFindPluginCallback, "il2cpp_set_find_plugin_callback"),
   (.registerLogCallback, "il2cpp_register_log_callback"),
   (.debuggerSetAgentOptions, "il2cpp_debugger_set_agent_options"),
   (.isDebuggerAttached, "il2cpp_is_debugger_attached"),
   (.unityInstallUnitytlsInterface, "il2cpp_unity_install_unitytls_interface"),
   (.customAttrsFromClass, "il2cpp_custom_attrs_from_class"),
   (.customAttrsFromMethod, "il2cpp_custom_attrs_from_method"),
   (.customAttrsGetAttr, "il2cpp_custom_attrs_get_attr"),
   (.customAttrsHasAttr, "il2cpp_custom_attrs_has_attr"),
   (.customAttrsConstruct, "il2cpp_custom_attrs_construct"),
   (.customAttrsFree, "il2cpp_custom_attrs_free"),
   (.classGetTypeConst, "il2cpp_class_get_type"),
   (.classGetNameConst, "il2cpp_class_get_name")]

/-- The text logged after an assignment. -/
def loadedText : Fn → String → String
  | .init, symbol => "Loaded: " ++ symbol ++ ", error: %s"
  | .classGetTypeConst, symbol => "Loaded: " ++ symbol ++ " CONST VERSION!"
  | .classGetNameConst, symbol => "Loaded: " ++ symbol ++ " CONST VERSION!"
  | _, symbol => "Loaded: " ++ symbol

/-- `Init` assigns every declared pointer. -/
theorem initTable_complete : ∀ f : Fn, f ∈ initTable.map Prod.fst := by
  intro f
  cases f <;> decide +kernel

end PistolWhipHook
